import Mathlib
import SharedCell.Proofs.Agenda.Changes
import SharedCell.Proofs.Cell.UnitEffects
import SharedCell.Proofs.Solo.Equivalences

/-!
# Units in the log

Every unit that is acquired or released is logged.  What a step adds to the log tells which units it
has dealt in: a step of a call deals in the unit of its effect, an operation that makes a cell of a
value acquires a unit on the value, and all other operations on cells begin without dealing in
units.
-/

namespace SharedCell

open Operation

variable {β : Type}

/-- What the log says of the acquisition or the release of a unit. -/
def Event.deal? : Event → Option Effect
  | .acquired obj _ => some (.acquire obj)
  | .released obj _ => some (.release obj)
  | _ => none

namespace World

/-- One world comes from another one by acquisitions and releases, and by what leaves no trace of a
unit in the log. -/
def Deals (world next : World β) (deals : List Effect) : Prop :=
  ∃ events, next.log = events ++ world.log ∧ events.reverse.filterMap (·.2.deal?) = deals

/-- The acquisitions and releases that the log has got between two worlds. -/
def dealt (world next : World β) : List Effect :=
  (next.log.take (next.log.length - world.log.length)).reverse.filterMap (·.2.deal?)

variable {world next last : World β} {thread : ℕ} {deals more : List Effect}

namespace Deals

theorem of_log (hlog : next.log = world.log) : world.Deals next [] :=
  ⟨[], hlog, rfl⟩

theorem trans (hfirst : world.Deals next deals) (hsecond : next.Deals last more) :
    world.Deals last (deals ++ more) := by
  obtain ⟨events, hevents, rfl⟩ := hfirst
  obtain ⟨others, hothers, rfl⟩ := hsecond
  refine ⟨others ++ events, ?_, ?_⟩
  · rw [hothers, hevents, List.append_assoc]
  · rw [List.reverse_append, List.filterMap_append]

/-- The log tells what was dealt in. -/
theorem dealt (hdeals : world.Deals next deals) : world.dealt next = deals := by
  obtain ⟨events, hevents, rfl⟩ := hdeals
  rw [World.dealt, hevents, List.length_append, Nat.add_sub_cancel, List.take_left]

theorem congr {other : World β} (hdeals : world.Deals next deals) (hlog : world.log = other.log) :
    other.Deals next deals := by
  obtain ⟨events, hevents, hall⟩ := hdeals
  exact ⟨events, hlog ▸ hevents, hall⟩

end Deals

/-- Questions, rejections and reports are not about units. -/
theorem deals_trace (world : World β) (thread : ℕ) {event : Event} (hevent : event.deal? = none) :
    world.Deals (world.trace thread event) [] := by
  unfold trace
  split
  · exact ⟨[(thread, event)], rfl, by simp [hevent]⟩
  · exact .of_log rfl

theorem deals_ask (world : World β) (thread : ℕ) (guard : Guard) (obj : ObjectId) :
    world.Deals (world.ask thread guard obj) [] := by
  unfold ask
  split
  · exact world.deals_trace thread rfl
  · exact .of_log rfl

variable [Resident β]

theorem deals_acquire (world : World β) (thread : ℕ) (obj : ObjectId) :
    world.Deals (world.acquire thread obj) [.acquire obj] :=
  ⟨[(thread, .acquired obj (world.count obj))], rfl, rfl⟩

theorem deals_release (world : World β) (thread : ℕ) (obj : ObjectId) :
    world.Deals (world.release thread obj) [.release obj] := by
  refine ⟨_, (Books.log_release world thread obj).trans (List.append_cons _ _ _), ?_⟩
  split <;> rfl

theorem deals_letGo (world : World β) (thread : ℕ) (unit : ObjectId) :
    world.Deals (world.letGo thread unit).1 [.release unit] :=
  world.deals_release thread unit

end World

/-! ## Steps of calls -/

namespace Call

variable [Resident β] {world next : World β} {thread : ℕ} {call : Call} {frames : List Frame}

/-- An effect of a call is in the log. -/
theorem deals_affect (world : World β) (thread : ℕ) (guard : Guard) (effect : Option Effect) :
    world.Deals (affect world thread guard effect).1 (effect.toList.filter Effect.deals) := by
  cases effect with
  | none => exact .of_log rfl
  | some effect =>
    cases effect with
    | acquire obj => exact world.deals_acquire thread obj
    | release obj => exact world.deals_letGo thread obj
    | ask obj => exact world.deals_ask thread guard obj
    | reject obj => exact world.deals_trace thread rfl
    | retry | wait => exact world.deals_trace thread rfl

omit [Resident β] in
theorem log_conclude (world : World β) (call : Call) (outcome : Outcome) :
    (call.conclude world outcome).1.log = world.log := by
  obtain ⟨cells, hsettled⟩ := call.exists_settled world outcome
  rw [conclude, hsettled]

/-- A step of a call deals in the unit of its effect, if there is one, and in no other. -/
theorem deals_step (hstep : call.step world thread = some (next, frames)) :
    world.Deals next (call.stage.effect?.toList.filter Effect.deals) := by
  rcases step_cases hstep with
    ⟨outcome, hfinished, rfl, -⟩ | ⟨cell, slot, stage, effect, -, hstage, rfl, -⟩
  · rw [hfinished]
    exact .of_log (log_conclude world call outcome)
  · rw [← Stage.effect_step hstage]
    exact (deals_affect _ thread cell.guard effect).congr rfl

end Call

/-! ## Beginnings -/

/-- What a new cell costs that is asked for with a reference: a unit on the reference if the cell is
to hold it and is made, and nothing if it takes over a unit, begins empty or is not made. -/
def Operation.outlay (unit : Option ObjectId) (origin : Option Origin) : Frame → List Effect
  | .tidy _ .ok =>
      match origin with
      | some .value => Effect.acquires unit
      | _ => []
  | _ => []

namespace Attempt

variable {α γ : Type} {thread : ℕ}

/-- An attempt that deals in units as can be told from what it yields. -/
def Deals (deals : α → List Effect) (attempt : Attempt β α) : Prop :=
  ∀ world value next, attempt.run world = .ok (value, next) → world.Deals next (deals value)

/-- An attempt that deals in no units. -/
abbrev Abstains (attempt : Attempt β α) : Prop :=
  attempt.Deals fun _ => []

variable {attempt : Attempt β α} {rest : α → Attempt β γ} {deals : γ → List Effect}

theorem Stays.abstains (hstays : attempt.Stays) : attempt.Abstains := by
  intro world value next hrun
  rw [hstays world value next hrun]
  exact .of_log rfl

theorem Abstains.bind (habstains : attempt.Abstains) (hrest : ∀ value, (rest value).Deals deals) :
    (attempt >>= rest).Deals deals := by
  intro world result next hrun
  obtain ⟨value, between, hattempt, hrun⟩ := run_bind.mp hrun
  exact (habstains _ _ _ hattempt).trans (hrest value _ _ _ hrun)

theorem abstains_modify {change : World β → World β}
    (hchange : ∀ world : World β, world.Deals (change world) []) :
    (modify change : Attempt β PUnit).Abstains := by
  intro world result next hrun
  rw [run_modify.mp hrun]
  exact hchange world

theorem deals_pure {value : γ} (hdeals : deals value = []) :
    (pure value : Attempt β γ).Deals deals := by
  intro world result next hrun
  obtain ⟨rfl, rfl⟩ := run_pure.mp hrun
  rw [hdeals]
  exact .of_log rfl

theorem deals_throw (fault : Fault) : (throw fault : Attempt β γ).Deals deals :=
  fun _ _ _ hrun => (run_throw.mp hrun).elim

theorem abstains_use (found : List (Option Holder)) :
    (use found : Attempt β (List ℕ)).Abstains := by
  refine Abstains.bind (abstains_modify fun world => ?_) fun _ => deals_pure rfl
  obtain ⟨holders, heq, -⟩ := exists_used world (found.filterMap (·.map (·.id)))
  rw [heq]
  exact .of_log rfl

theorem abstains_makeCall (name : String) (cell : Cell) (action : Action)
    (target copy : Option String) (found : List (Option Holder)) :
    (makeCall thread name cell action target copy found : Attempt β Call).Abstains :=
  (abstains_use found).bind fun _ =>
    (abstains_modify fun _ => .of_log (by rfl)).bind fun _ => deals_pure rfl

theorem abstains_freezeCell (cell : Option String) :
    (startFreezeCell thread cell : Attempt β Frame).Abstains :=
  (stays_cell cell).abstains.bind fun _ => (stays_require _ _).abstains.bind fun _ =>
    (stays_require _ _).abstains.bind fun _ =>
      (abstains_makeCall _ _ _ _ _ _).bind fun _ => deals_pure rfl

theorem abstains_pull (name : Option String) : (pull name : Attempt β ObjectId).Abstains :=
  (stays_handle name).abstains.bind fun _ => (stays_require _ _).abstains.bind fun _ =>
    (abstains_modify fun _ => .of_log (by rfl)).bind fun _ => deals_pure rfl

variable [Resident β]

theorem abstains_onCell (cell : Option String) (verb : Verb) (new expected : Arg)
    (target : Option String) :
    (startOnCell thread cell verb new expected target : Attempt β Frame).Abstains := by
  refine (stays_cell cell).abstains.bind fun found => (stays_require _ _).abstains.bind fun _ =>
    (stays_arg new).abstains.bind fun new => (stays_comparand _ verb expected).abstains.bind
      fun compared => (stays_copyName _ verb).abstains.bind fun copy => ?_
  split
  · exact deals_pure rfl
  · exact deals_throw _
  · exact deals_throw _
  · split
    · exact deals_throw _
    · exact (abstains_makeCall _ _ _ _ _ _).bind fun _ => deals_pure rfl

theorem abstains_enforce (guard : Guard) (unit : Option ObjectId) :
    (enforce thread guard unit : Attempt β (Option ObjectId)).Abstains := by
  have hconsult : (consult thread guard unit : Attempt β Bool).Abstains := by
    cases unit with
    | none => exact deals_pure rfl
    | some obj =>
      exact stays_get.abstains.bind fun _ =>
        (abstains_modify fun world => world.deals_ask thread guard obj).bind fun _ =>
          deals_pure rfl
  refine hconsult.bind fun accepted => ?_
  split
  · exact deals_pure rfl
  · cases unit with
    | none => exact (stays_pure _).abstains.bind fun _ => deals_pure rfl
    | some obj =>
      exact (abstains_modify fun world => world.deals_trace thread rfl).bind fun _ =>
        deals_pure rfl

/-- A unit is acquired for the cell. -/
theorem deals_fill (unit : Option ObjectId) (name : String) (kind : CellKind) (guard : Guard) :
    (do unit.forM fun obj => modify (·.acquire thread obj)
        addCell name kind guard unit : Attempt β Frame).Deals (outlay unit (some .value)) := by
  intro world frame next hrun
  obtain ⟨_, between, hacquired, hadded⟩ := run_bind.mp hrun
  have hmade := bind_modify hadded
  obtain ⟨rfl, rfl⟩ := run_pure.mp hmade
  cases unit with
  | none =>
    obtain ⟨-, rfl⟩ := run_pure.mp hacquired
    exact .of_log rfl
  | some obj =>
    obtain rfl := run_modify.mp hacquired
    exact (world.deals_acquire thread obj).trans (.of_log rfl)

omit [Resident β] in
theorem deals_addCell (unit : Option ObjectId) {origin : Option Origin}
    (horigin : origin ≠ some .value) (name : String) (kind : CellKind) (guard : Guard)
    (content : Option ObjectId) :
    (addCell name kind guard content : Attempt β Frame).Deals (outlay unit origin) := by
  refine (abstains_modify fun _ => .of_log (by rfl)).bind fun _ => deals_pure ?_
  cases origin with
  | none => rfl
  | some origin => cases origin <;> first | rfl | exact absurd rfl horigin

omit [Resident β] in
/-- An argument that is found stands for its object. -/
theorem meaning_of_arg {world next : World β} {argument : Arg} {found : Option Holder}
    (hrun : (arg argument : Attempt β (Option Holder)).run world = .ok (found, next)) :
    world.meaning? argument = some (found.map (·.unit)) := by
  cases argument with
  | empty =>
    obtain ⟨rfl, -⟩ := run_pure.mp hrun
    rfl
  | malformed => exact (run_throw.mp hrun).elim
  | named name =>
    rw [arg, map_eq_pure_bind] at hrun
    obtain ⟨holder, hnamed, hrest⟩ := bind_stays (stays_named name) hrun
    obtain ⟨rfl, -⟩ := run_pure.mp hrest
    have hlookup := bind_get hnamed
    split at hlookup
    · exact (run_throw.mp hlookup).elim
    · rename_i present hfound
      split at hlookup
      · exact (run_throw.mp hlookup).elim
      · rename_i hshared
        obtain ⟨rfl, -⟩ := run_pure.mp hlookup
        simp [World.meaning?, hfound, Option.filter, hshared]

/-- A new cell costs its outlay. -/
theorem deals_startNewCell (cell : Option String) (guard : GuardArg) (value : Arg)
    (kind : Option (Option CellKind)) (origin : Option Origin) (source : Option String)
    {world next : World β} {frame : Frame}
    (hrun : (startNewCell thread cell guard value kind origin source : Attempt β Frame).run world =
      .ok (frame, next)) :
    world.Deals next (outlay ((world.meaning? value).getD none) origin frame) := by
  obtain ⟨name, -, hrun⟩ := bind_newCellName hrun
  obtain ⟨given, -, hrun⟩ := bind_stays (stays_guardOf guard) hrun
  obtain ⟨found, harg, hrun⟩ := bind_stays (stays_arg value) hrun
  obtain ⟨kind, -, hrun⟩ := bind_field hrun
  rw [meaning_of_arg harg, Option.getD_some]
  refine (?_ : Attempt.Deals (outlay (found.map (·.unit)) origin) _) world frame next hrun
  split
  · refine (abstains_enforce given _).bind fun rejected => ?_
    split
    · exact deals_pure rfl
    · exact deals_fill _ _ _ _
  · exact deals_addCell _ (by simp) _ _ _ _
  · exact deals_addCell _ (by simp) _ _ _ _
  · exact deals_fill _ _ _ _
  · exact deals_addCell _ (by simp) _ _ _ _
  · exact deals_fill _ _ _ _
  · exact (abstains_use _).bind fun _ => (abstains_pull source).bind fun _ =>
      (abstains_modify fun _ => .of_log (by rfl)).bind fun _ => deals_pure rfl
  · exact deals_throw _

end Attempt

namespace Operation

open Attempt

variable [Resident β] {world : World β} {op : Operation} {name : String} {found : Cell}

/-- The operations that make a call on a cell. -/
def makesCall : Operation → Bool
  | .onCell .. | .freezeCell _ => true
  | _ => false

/-- A call on a cell begins without dealing in units. -/
theorem deals_start_call (hcalls : op.makesCall = true) (thread : ℕ) (world : World β) :
    world.Deals (op.start thread world).1 [] := by
  have hbegin : (begin? thread op : Attempt β Frame).Abstains := by
    cases op with
    | onCell cell verb new expected target => exact abstains_onCell cell verb new expected target
    | freezeCell cell => exact abstains_freezeCell cell
    | _ => cases hcalls
  unfold start
  split
  · rename_i frame next hrun
    exact hbegin world frame next hrun
  · exact .of_log rfl

theorem deals_start_newCell (cell : Option String) (guard : GuardArg) (value : Arg)
    (kind : Option (Option CellKind)) (origin : Option Origin) (source : Option String) (thread : ℕ)
    (world : World β) :
    let started := (newCell cell guard value kind origin source).start thread world
    world.Deals started.1 (outlay ((world.meaning? value).getD none) origin started.2) := by
  intro started
  cases hrun : (begin? thread (newCell cell guard value kind origin source)).run world with
  | ok result =>
    have hstarted : started = (result.2, result.1) := by simp only [started, start, hrun]
    rw [hstarted]
    exact deals_startNewCell cell guard value kind origin source hrun
  | error fault =>
    have hstarted : started = (world, .tidy [] (.fault fault)) := by
      simp only [started, start, hrun]
    rw [hstarted]
    exact .of_log rfl

omit [Resident β] in
theorem run_consuming (hcell : world.cell? name = some found) (hidle : found.idle = true) :
    (consuming (some name) : Attempt β (Option ObjectId)).run world =
      .ok (found.slot.content, world.eraseCell name) := by
  simp only [consuming, Attempt.cell, field, StateT.run_bind, pure_bind, StateT.run_get, hcell,
    StateT.run_pure, hidle]
  rfl

/-- A cell that is dropped gives up its unit in the end. -/
theorem start_dropCell_idle (hcell : world.cell? name = some found) (hidle : found.idle = true)
    (thread : ℕ) : (dropCell (some name)).start thread world =
      (world.eraseCell name, .tidy (found.slot.content.toList.map .release) .ok) := by
  rw [start_dropCell, run_consuming hcell hidle]
  cases found.slot.content <;> rfl

/-- The unit of a cell that is consumed goes to the caller. -/
theorem start_intoInner_idle (hcell : world.cell? name = some found) (hidle : found.idle = true)
    (hkind : found.kind ≠ .freezable) (target : Option String) (thread : ℕ) :
    (intoInner (some name) target).start thread world =
      (world.eraseCell name,
        .tidy (delivery target found.slot.content) (.unit found.slot.content)) := by
  have hconsumable : Consumable world (some name) := by
    rintro _ other ⟨⟩ hother
    rwa [← Option.some.inj (hcell.symm.trans hother)]
  rw [start_intoInner hconsumable, run_consuming hcell hidle]

end Operation

end SharedCell
