import Mathlib
import SharedCell.Proofs.Agenda.Begins
import SharedCell.Proofs.Agenda.InterruptedFrames

/-!
# Frames after a step

Every frame on an agenda comes from one before: it was there already, an operation has just begun
with it, it is what a call or a request for access has become, or it is quiet.
-/

namespace SharedCell

open Operation

variable {β : Type}

/-- A frame that an operation begins with, in the world that it leaves. -/
def Frame.Opening (world : World β) : Frame → Prop
  | .call active => ∃ cell, world.cell? active.cell = some cell ∧
      active.stage = active.action.opening cell.kind
  | .mutate _ _ _ stateSeen => stateSeen = false
  | _ => True

theorem Frame.Quiet.opening {world : World β} {frame : Frame} (hquiet : frame.Quiet) :
    frame.Opening world := by
  cases frame <;> first | exact trivial | exact hquiet.elim

theorem Frame.Initial.opening {world : World β} {frame : Frame} (hinitial : frame.Initial world) :
    frame.Opening world := by
  cases hinitial with
  | chores => trivial
  | request => rfl
  | call hcell hstage => exact ⟨_, hcell, hstage⟩

namespace Attempt

/-- An attempt that puts an opening frame on the agenda. -/
def Opens (attempt : Attempt β Frame) : Prop :=
  ∀ world frame next, attempt.run world = .ok (frame, next) → frame.Opening next

variable [Resident β] {thread : ℕ}

theorem opens_alloc (object : Option String) (value : Option Payload)
    (mutability : Option Mutability) (refs : List (Option String)) (script : List Operation) :
    (startAlloc thread object value mutability refs script : Attempt β Frame).Opens := by
  intro world frame next hrun
  rcases alloc_run hrun with
    ⟨fault, rfl, -⟩ | ⟨name, mutability, payload, body, -, added, obj, -, rfl, -⟩
  · trivial
  · trivial

omit [Resident β] in
theorem opens_rounds (count : Option ℕ) (body : Option (List Operation)) :
    (startRounds count body : Attempt β Frame).Opens := by
  intro world frame next hrun
  obtain ⟨count, -, hrun⟩ := bind_field hrun
  obtain ⟨body, -, hrest⟩ := bind_field hrun
  split at hrest <;>
  · obtain ⟨rfl, rfl⟩ := run_pure.mp hrest
    trivial

theorem opens_begin {op : Operation} (hordinary : op.ordinary = true) :
    (begin? thread op : Attempt β Frame).Opens := by
  cases op with
  | alloc object value mutability refs script =>
    exact opens_alloc object value mutability refs script
  | rounds count body => exact opens_rounds count body
  | _ =>
    exact fun world frame next hrun =>
      (starts_begin hordinary rfl (by simp) world frame next hrun).opening

end Attempt

variable [Resident β] {world next : World β} {thread : ℕ}

theorem Operation.opening_start {op : Operation} (hordinary : op.ordinary = true) (thread : ℕ)
    (world : World β) : (op.start thread world).2.Opening (op.start thread world).1 := by
  unfold Operation.start
  split
  · rename_i frame next hrun
    exact Attempt.opens_begin hordinary world frame next hrun
  · trivial

namespace Frame

/-- Where a frame comes from. -/
inductive Comes (thread : ℕ) (world next : World β) (agenda : List Frame) (frame : Frame) :
    Prop where
  | kept (hmem : frame ∈ agenda.tail)
  | opening (hopening : frame.Opening next)
  | stepped (active : Call) (below : List Frame) (cell : Cell) (slot : Slot) (stage : Stage)
      (effect : Option Effect) (hagenda : agenda = .call active :: below)
      (hcell : world.cell? active.cell = some cell)
      (hstage : active.stage.step cell.kind cell.guard active.action world.facts world.shape
        cell.slot = some (slot, stage, effect))
      (hnext : next = (Call.affect (world.modifyCell active.cell ({ · with slot })) thread
        cell.guard effect).1)
      (hframe : frame = .call { active with stage })
  | seen (holder : ℕ) (obj : ObjectId) (payload : Payload) (below : List Frame) (object : Object β)
      (hagenda : agenda = .mutate holder obj payload false :: below)
      (hobject : world.object? obj = some object)
      (hmutable : Resident.isMutable object.body = true) (hnext : next = world)
      (hframe : frame = .mutate holder obj payload true)

section Tops

variable {before after : Frame} {below opened : List Frame}

theorem comes_top (hafter : Comes thread world next (before :: below) after) :
    ∀ frame ∈ after :: below, Comes thread world next (before :: below) frame :=
  List.forall_mem_cons.mpr ⟨hafter, fun _ hframe => .kept hframe⟩

theorem comes_quiet (hquiet : after.Quiet) :
    ∀ frame ∈ after :: below, Comes thread world next (before :: below) frame :=
  comes_top (.opening hquiet.opening)

theorem comes_opened (hopened : opened = [] ∨ ∃ other, opened = [other] ∧ other.Quiet)
    (hafter : Comes thread world next (before :: below) after) :
    ∀ frame ∈ opened ++ after :: below, Comes thread world next (before :: below) frame := by
  rcases hopened with rfl | ⟨other, rfl, hquiet⟩
  · exact comes_top hafter
  · exact List.forall_mem_cons.mpr ⟨.opening hquiet.opening, comes_top hafter⟩

end Tops

theorem comes_receive (reply : Reply) (frame : Frame) (below : List Frame) :
    Comes thread world next (.tidy [] reply :: frame :: below) (receive world reply frame).2 := by
  cases frame with
  | call active => exact .kept List.mem_cons_self
  | mutate holder obj payload stateSeen => exact .kept List.mem_cons_self
  | _ => exact .opening trivial

theorem comes_step {agenda later : List Frame}
    (hordinary : ∀ frame ∈ agenda, frame.ordinary = true)
    (hstep : step thread world agenda = some (next, later)) :
    ∀ frame ∈ later, Comes thread world next agenda frame := by
  cases agenda with
  | nil => cases hstep
  | cons top below =>
    have htop := hordinary top List.mem_cons_self
    cases move_of_step hstep with
    | @call active _ _ _ hactive =>
      rcases Call.step_cases hactive with
        ⟨outcome, -, rfl, rfl⟩ | ⟨cell, slot, stage, effect, hcell, hstage, rfl, rfl⟩
      · exact comes_quiet trivial
      · rw [List.append_assoc]
        refine comes_opened ?_
          (.stepped active below cell slot stage effect rfl hcell hstage rfl rfl)
        rcases Call.affect_cases (world.modifyCell active.cell ({ · with slot })) thread cell.guard
          effect with hnone | ⟨obj, frame, -, hframe, hopened⟩
        · exact .inl hnone
        · exact .inr ⟨frame, hframe, hopened⟩
    | @look object holder obj payload _ hobject hmutable =>
      exact comes_top (.seen holder obj payload below object rfl hobject hmutable rfl rfl)
    | reply told frame below =>
      exact List.forall_mem_cons.mpr ⟨comes_receive told frame below, fun other hother =>
        .kept (List.mem_cons_of_mem frame hother)⟩
    | chore chore chores told =>
      exact comes_opened (chore.perform_cases thread world) (.opening trivial)
    | tell owner op ops =>
      rw [Frame.ordinary, ordinaryAll_cons] at htop
      exact List.forall_mem_cons.mpr ⟨.opening (op.opening_start htop.1 thread world),
        comes_quiet trivial⟩
    | surrendered => exact fun frame hframe => .kept hframe
    | @surrender _ ref after =>
      exact comes_opened (after.letGo_cases thread ref) (.opening trivial)
    | perform remaining body op =>
      rw [Frame.ordinary, Bool.and_eq_true, ordinaryAll_cons] at htop
      exact List.forall_mem_cons.mpr ⟨.opening (op.opening_start htop.2.1 thread world),
        comes_quiet trivial⟩
    | stress => cases htop
    | refuse | write | told | ended | again => exact comes_quiet trivial

end Frame

end SharedCell
