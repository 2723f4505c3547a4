import Mathlib
import SharedCell.Proofs.Agenda.StartChanges

/-!
# Frames that operations begin with

An operation that makes no object and does not repeat others begins in one of three ways.  It has a
reply and a few chores, it is about to change a payload, or it is a call that has not accessed its
cell yet.
-/

namespace SharedCell

open Operation

variable {β : Type}

/-- The frames that such an operation begins with, in the world that it leaves. -/
inductive Frame.Initial (world : World β) : Frame → Prop where
  | chores {chores : List Chore} (hfew : chores.length ≤ 2) (reply : Reply) :
      Initial world (.tidy chores reply)
  | request (holder : ℕ) (obj : ObjectId) (payload : Payload) :
      Initial world (.mutate holder obj payload false)
  | call {active : Call} {cell : Cell} (hcell : world.cell? active.cell = some cell)
      (hstage : active.stage = active.action.opening cell.kind)
      (hfew : active.holders.length ≤ 2) : Initial world (.call active)

namespace Attempt

/-- An attempt whose values, if it has any, have a property. -/
def Yields {α : Type} (property : α → Prop) (attempt : Attempt β α) : Prop :=
  ∀ world value next, attempt.run world = .ok (value, next) → property value

/-- An attempt that puts such a frame on the agenda. -/
def Starts (attempt : Attempt β Frame) : Prop :=
  ∀ world frame next, attempt.run world = .ok (frame, next) → frame.Initial next

variable {α : Type} {thread : ℕ}

theorem Yields.starts {property : α → Prop} {attempt : Attempt β α} {rest : α → Attempt β Frame}
    (hattempt : attempt.Yields property) (hrest : ∀ value, property value → (rest value).Starts) :
    (attempt >>= rest).Starts := by
  intro world frame next hrun
  obtain ⟨value, between, hattempted, hrun⟩ := run_bind.mp hrun
  exact hrest value (hattempt _ _ _ hattempted) _ _ _ hrun

/-- The last part of an attempt decides on the frame. -/
theorem starts_last {attempt : Attempt β α} {rest : α → Attempt β Frame}
    (hrest : ∀ value, (rest value).Starts) : (attempt >>= rest).Starts :=
  Yields.starts (fun _ _ _ _ => trivial) fun value _ => hrest value

theorem starts_throw (fault : Fault) : (throw fault : Attempt β Frame).Starts :=
  fun _ _ _ hrun => (run_throw.mp hrun).elim

theorem starts_pure {frame : Frame} (hinitial : ∀ world : World β, frame.Initial world) :
    (pure frame : Attempt β Frame).Starts := by
  intro world found next hrun
  obtain ⟨rfl, rfl⟩ := run_pure.mp hrun
  exact hinitial next

theorem starts_chores {chores : List Chore} (hfew : chores.length ≤ 2) (reply : Reply) :
    (pure (.tidy chores reply) : Attempt β Frame).Starts :=
  starts_pure fun _ => .chores hfew reply

theorem starts_answer (reply : Reply) : (answer reply : Attempt β Frame).Starts :=
  starts_chores (by decide) reply

theorem Replies.starts {attempt : Attempt β Frame} (hreplies : attempt.Replies) :
    attempt.Starts := by
  intro world frame next hrun
  obtain ⟨-, reply, rfl⟩ := hreplies world frame next hrun
  exact .chores (by decide) reply

theorem yields_use (found : List (Option Holder)) :
    (use found : Attempt β (List ℕ)).Yields fun ids => ids.length ≤ found.length := by
  intro world ids next hrun
  have hmodified := bind_modify hrun
  obtain ⟨rfl, -⟩ := run_pure.mp hmodified
  exact List.length_filterMap_le _ _

theorem length_delivery (target : Option String) (unit : Option ObjectId) :
    (delivery target unit).length ≤ 1 := by
  cases unit <;> cases target <;> simp [delivery]

/-! ## Calls -/

theorem makeCall_initial {world next : World β} {name : String} {cell : Cell} {action : Action}
    {target copy : Option String} {found : List (Option Holder)} {frame : Frame}
    (hcell : world.cell? name = some cell) (hfew : found.length ≤ 2)
    (hrun : (do pure (.call (← makeCall thread name cell action target copy found)) :
      Attempt β Frame).run world = .ok (frame, next)) :
    frame.Initial next := by
  obtain ⟨call, between, hcall, hrun⟩ := run_bind.mp hrun
  obtain ⟨rfl, rfl⟩ := run_pure.mp hrun
  obtain ⟨ids, after, huse, hrest⟩ := run_bind.mp hcall
  have hids := (yields_use found _ _ _ huse).trans hfew
  have hmodified := bind_modify huse
  obtain ⟨rfl, rfl⟩ := run_pure.mp hmodified
  obtain ⟨holders, hused, -⟩ := exists_used world (found.filterMap (·.map (·.id)))
  rw [hused] at hrest
  have hmade := bind_modify hrest
  obtain ⟨rfl, rfl⟩ := run_pure.mp hmade
  exact .call (World.cell?_modifyCell hcell) (by rw [Cell.use_kind]) hids

theorem starts_freezeCell (cell : Option String) :
    (startFreezeCell thread cell : Attempt β Frame).Starts := by
  intro world frame next hrun
  obtain ⟨name, cell, hcell, hrun⟩ := bind_cell hrun
  obtain ⟨-, hrun⟩ := bind_require hrun
  obtain ⟨-, hrun⟩ := bind_require hrun
  exact makeCall_initial hcell (by decide) hrun

variable [Resident β]

theorem starts_onCell (cell : Option String) (verb : Verb) (new expected : Arg)
    (target : Option String) :
    (startOnCell thread cell verb new expected target : Attempt β Frame).Starts := by
  intro world frame next hrun
  obtain ⟨name, cell, hcell, hrun⟩ := bind_cell hrun
  obtain ⟨-, hrun⟩ := bind_require hrun
  obtain ⟨new, -, hrun⟩ := bind_stays (stays_arg new) hrun
  obtain ⟨compared, -, hrun⟩ := bind_stays (stays_comparand _ _ _) hrun
  obtain ⟨copy, -, hrun⟩ := bind_stays (stays_copyName _ _) hrun
  split at hrun
  · exact starts_answer _ _ _ _ hrun
  · exact (run_throw.mp hrun).elim
  · exact (run_throw.mp hrun).elim
  · split at hrun
    · exact (run_throw.mp hrun).elim
    · exact makeCall_initial hcell le_rfl hrun

/-! ## Operations -/

theorem starts_newCell (cell : Option String) (guard : GuardArg) (value : Arg)
    (kind : Option (Option CellKind)) (origin : Option Origin) (source : Option String) :
    (startNewCell thread cell guard value kind origin source : Attempt β Frame).Starts := by
  have hadd (name : String) (kind : CellKind) (guard : Guard) (content : Option ObjectId) :
      (addCell name kind guard content : Attempt β Frame).Starts :=
    starts_last fun _ => starts_answer .ok
  refine starts_last fun name => starts_last fun given => starts_last fun value =>
    starts_last fun kind => ?_
  split
  · refine starts_last fun rejected => ?_
    split
    · exact starts_answer _
    · exact starts_last fun _ => hadd _ _ _ _
  · exact hadd _ _ _ _
  · exact hadd _ _ _ _
  · exact starts_last fun _ => hadd _ _ _ _
  · exact hadd _ _ _ _
  · exact starts_last fun _ => hadd _ _ _ _
  · refine (yields_use [value]).starts fun ids hids => starts_last fun _ => starts_last fun _ =>
      starts_chores ?_ .ok
    rw [List.length_map]
    exact Nat.le_succ_of_le hids
  · exact starts_throw _

theorem starts_begin {op : Operation} (hordinary : op.ordinary = true)
    (hexisting : op.allocates = false) (hsingle : ∀ count body, op ≠ .rounds count body) :
    (begin? thread op : Attempt β Frame).Starts := by
  cases op with
  | alloc => cases hexisting
  | rounds count body => exact absurd rfl (hsingle count body)
  | race | stress =>
    rw [Operation.ordinary] at hordinary
    cases hordinary
  | malformed => exact starts_throw _
  | clone source target =>
    refine starts_last fun holder => starts_last fun _ =>
      (yields_use [some holder]).starts fun ids hids => starts_last fun _ => starts_chores ?_ .ok
    rw [List.length_cons, List.length_map]
    exact Nat.succ_le_succ hids
  | drop source => exact starts_last fun _ => starts_chores (by simp) _
  | freeze source => exact starts_last fun _ => starts_last fun _ => starts_answer _
  | info source => exact (replies_info source).starts
  | mutate value source =>
    cases value with
    | none => exact starts_throw _
    | some payload =>
      exact starts_last fun _ => starts_last fun _ => starts_last fun _ => starts_last fun _ =>
        starts_pure fun _ => .request _ _ payload
  | sameObject left right => exact (replies_sameObject thread left right).starts
  | compare left right => exact (replies_compare left right).starts
  | hash source => exact (replies_hash source).starts
  | identity source => exact (replies_identity source).starts
  | debug source layout => exact (replies_debug source layout).starts
  | display source layout => exact (replies_display source layout).starts
  | intoRaw raw source =>
    exact starts_last fun _ => starts_last fun _ => starts_last fun _ => starts_last fun _ =>
      starts_last fun _ => starts_answer _
  | fromRaw target raw =>
    refine starts_last fun _ => starts_last fun _ => starts_last fun world => ?_
    split
    · exact starts_throw _
    · exact starts_last fun _ => starts_chores (by simp) _
  | check source guard =>
    exact starts_last fun _ => starts_last fun _ => starts_last fun _ => starts_answer _
  | ensure source guard =>
    refine starts_last fun _ => starts_last fun _ => starts_last fun _ => ?_
    split <;> exact starts_answer _
  | compareErrors left right =>
    refine starts_last fun _ => starts_last fun _ => starts_last fun _ => starts_last fun _ => ?_
    split <;> exact starts_answer _
  | newCell cell guard value kind origin source =>
    exact starts_newCell cell guard value kind origin source
  | dropCell cell =>
    exact starts_last fun _ => starts_last fun _ => starts_last fun _ =>
      starts_chores (Nat.le_succ_of_le (length_delivery _ _)) _
  | intoInner cell target =>
    exact starts_last fun _ => starts_last fun _ => starts_last fun _ => starts_last fun _ =>
      starts_chores (Nat.le_succ_of_le (length_delivery _ _)) _
  | freezeCell cell => exact starts_freezeCell cell
  | onCell cell verb new expected target => exact starts_onCell cell verb new expected target

end Attempt

end SharedCell
