import Mathlib
import SharedCell.Proofs.Cell.Stage

/-!
# Units of a call

A step of a call on a cell moves units between the slot and the call.  There is one unit more
exactly if the step acquires one, and one unit less exactly if it releases one.  What is acquired is
the content that the call has pinned, or what the call is to store.
-/

namespace SharedCell

open Text

namespace Slot

/-- The units that a slot owns. -/
def units (slot : Slot) : Multiset ObjectId :=
  ↑slot.content.toList

theorem mem_units {slot : Slot} {obj : ObjectId} : obj ∈ slot.units ↔ slot.content = some obj := by
  rw [units, Multiset.mem_coe, Option.mem_toList]

end Slot

namespace Effect

def gains : Option Effect → Multiset ObjectId
  | some (.acquire obj) => {obj}
  | _ => 0

def losses : Option Effect → Multiset ObjectId
  | some (.release obj) => {obj}
  | _ => 0

theorem mem_gains {effect : Option Effect} {obj : ObjectId} :
    obj ∈ gains effect ↔ effect = some (.acquire obj) := by
  unfold gains
  split
  · simp [eq_comm]
  · rename_i hother
    exact iff_of_false (Multiset.notMem_zero obj) (hother obj)

end Effect

namespace Errand

/-- What an errand is to store. -/
def new? : Errand → Option ObjectId
  | .exchange _ new _ => new
  | _ => none

end Errand

namespace Phase

/-- What the call is still to acquire and to store. -/
def pending? : Phase → Option ObjectId
  | .locking errand | .copying errand => errand.new?
  | .acquiringNew new => some new
  | _ => none

variable {slot next : Slot} {phase later : Phase} {effect : Option Effect} {obj : ObjectId}

theorem units_copied (slot : Slot) (errand : Errand) :
    (copied slot errand).units = (copying errand).units := by
  cases errand <;> simp only [copied] <;> (repeat' split) <;> rfl

theorem step_units (hstep : phase.step slot = some (next, later, effect)) :
    (later.units : Multiset ObjectId) + next.units + Effect.losses effect =
      phase.units + slot.units + Effect.gains effect := by
  cases move_of_step hstep with
  | copy errand =>
    rw [units_copied]
    rfl
  | lock errand => cases errand <;> rfl
  | unpin purpose => cases purpose <;> rfl
  | acquire | acquireNew | discard =>
    simp [units, Slot.units, Effect.gains, Effect.losses, add_comm]
  | store new => simp [units, Slot.units, Slot.store, Effect.gains, Effect.losses, add_comm]
  | _ => rfl

theorem pending_copied {errand : Errand} (hpending : (copied slot errand).pending? = some obj) :
    errand.new? = some obj := by
  cases errand <;> simp only [copied] at hpending <;> (repeat' split at hpending) <;>
    simp_all [pending?, Errand.new?]

theorem pending_step (hstep : phase.step slot = some (next, later, effect))
    (hpending : later.pending? = some obj) : phase.pending? = some obj := by
  cases move_of_step hstep with
  | lock => exact hpending
  | copy => exact pending_copied hpending
  | unpin purpose => cases purpose <;> cases hpending
  | _ => cases hpending

/-- What is acquired was pinned, or is to be stored. -/
theorem acquires_step (hstep : phase.step slot = some (next, later, some (.acquire obj))) :
    (∃ version, phase.pinnedContent? = some (obj, version)) ∨ phase.pending? = some obj := by
  cases move_of_step hstep with
  | acquire purpose content version => exact .inl ⟨version, rfl⟩
  | acquireNew new => exact .inr rfl

theorem mem_units_of_displaced {version : ℕ} (hdisplaced : phase.displaced? = some (obj, version)) :
    obj ∈ phase.units := by
  cases phase with
  | departing old =>
    cases old <;> simp_all [displaced?, units]
  | _ => simp_all [displaced?, units]

end Phase

namespace Action

theorem new?_errand (kind : CellKind) (action : Action) :
    (action.errand kind).new? = action.new? := by
  cases action with
  | showText layout =>
    by_cases hkind : kind = .freezable <;> simp [errand, hkind, new?, Errand.new?]
  | _ => rfl

end Action

namespace Stage

/-- What the call is still to acquire and to store, and is no longer asked about. -/
def pending? (stage : Stage) : Option ObjectId :=
  stage.phase.pending?

/-- The objects that a call may put into its cell or take out of it. -/
def Carries (stage : Stage) (obj : ObjectId) : Prop :=
  obj ∈ stage.units ∨ stage.pending? = some obj

/-- A call stores nothing but what its action says. -/
def Fits (action : Action) (stage : Stage) : Prop :=
  (∀ new errand, stage = .asking new errand →
      action.new? = some new ∧ errand.new? = some new) ∧
    ∀ new, stage.pending? = some new → action.new? = some new

variable {kind : CellKind} {guard : Guard} {action : Action} {facts : ObjectId → Facts}
  {shape : Layout → ObjectId → Shape} {slot next : Slot} {stage later : Stage}
  {effect : Option Effect} {obj : ObjectId}

theorem fits_opening (kind : CellKind) (action : Action) : (action.opening kind).Fits action := by
  unfold Action.opening
  split
  · rename_i new hnew
    refine ⟨?_, ?_⟩
    · rintro new' errand heq
      obtain ⟨rfl, rfl⟩ := Stage.asking.inj heq
      exact ⟨hnew, (Action.new?_errand _ action).trans hnew⟩
    · intro new' hpending
      cases hpending
  · refine ⟨fun _ _ heq => (Stage.noConfusion heq), ?_⟩
    intro new hpending
    exact (Action.new?_errand _ action).symm.trans hpending

/-- On an atomic cell nothing is pending before the guard was asked. -/
theorem pending_opening (action : Action) : (action.opening .atomic).pending? = none := by
  unfold Action.opening
  split
  · rfl
  · rename_i hnew
    cases hpending : action.new? with
    | none => exact (Action.new?_errand .atomic action).trans hpending
    | some new => exact absurd hpending (hnew new rfl)

theorem units_opening (kind : CellKind) (action : Action) : (action.opening kind).units = [] := by
  unfold Action.opening
  split
  · rfl
  · cases action <;> simp only [Action.errand] <;> (try split) <;> rfl

theorem units_giveBack (unit : Option ObjectId) {outcome : Outcome} (hnone : outcome.units = []) :
    (giveBack unit outcome).units = unit.toList := by
  cases unit with
  | none => exact hnone
  | some obj => simp [giveBack, units, hnone]

theorem units_received (kind : CellKind) (result : Yield) (action : Action) :
    (received kind result action).units = result.unit.toList := by
  cases action with
  | set | compareAndSet | version => exact units_giveBack _ rfl
  | freeze | showText => cases hunit : result.unit <;> simp [received, hunit, units, Outcome.units]
  | _ => rfl

theorem pending_received (kind : CellKind) (result : Yield) (action : Action) :
    (received kind result action).pending? = none := by
  rw [pending?, phase_received]
  rfl

/-- A call that was asked about what it is to store goes on only if the guard accepts that. -/
theorem pending_step (hfits : stage.Fits action)
    (hstep : stage.step kind guard action facts shape slot = some (next, later, effect))
    (hpending : later.pending? = some obj) :
    stage.pending? = some obj ∨
      action.new? = some obj ∧ guard.accepts (facts obj) = true := by
  cases move_of_step hstep with
  | call hphase => exact .inl (Phase.pending_step hphase hpending)
  | receive =>
    rw [pending_received] at hpending
    cases hpending
  | accept errand haccepts =>
    obtain ⟨hnew, herrand⟩ := hfits.1 _ errand rfl
    obtain rfl := Option.some.inj (herrand.symm.trans hpending)
    exact .inr ⟨hnew, haccepts⟩
  | _ => cases hpending

/-- A call is asked at its opening, or not at all. -/
theorem step_ne_asking
    (hstep : stage.step kind guard action facts shape slot = some (next, later, effect))
    (new : ObjectId) (errand : Errand) : later ≠ .asking new errand := by
  cases move_of_step hstep with
  | receive => cases action <;> simp only [received, giveBack] <;> (try split) <;> simp
  | _ => simp

theorem Fits.step (hfits : stage.Fits action)
    (hstep : stage.step kind guard action facts shape slot = some (next, later, effect)) :
    later.Fits action := by
  constructor
  · intro new errand heq
    exact absurd heq (step_ne_asking hstep new errand)
  · intro new hpending
    rcases pending_step hfits hstep hpending with hbefore | ⟨hnew, -⟩
    · exact hfits.2 new hbefore
    · exact hnew

/-- What is acquired was pinned, or is to be stored. -/
theorem acquires_step
    (hstep : stage.step kind guard action facts shape slot =
      some (next, later, some (.acquire obj))) :
    (∃ version, stage.phase.pinnedContent? = some (obj, version)) ∨ stage.pending? = some obj := by
  cases move_of_step hstep with
  | call hphase => exact Phase.acquires_step hphase

theorem mem_units_of_displaced {version : ℕ}
    (hdisplaced : stage.phase.displaced? = some (obj, version)) : obj ∈ stage.units := by
  cases stage with
  | calling phase => exact Phase.mem_units_of_displaced hdisplaced
  | _ => cases hdisplaced

theorem step_units (hfits : stage.Fits action)
    (hstep : stage.step kind guard action facts shape slot = some (next, later, effect)) :
    (later.units : Multiset ObjectId) + next.units + Effect.losses effect =
      stage.units + slot.units + Effect.gains effect := by
  cases move_of_step hstep with
  | call hphase => exact Phase.step_units hphase
  | receive =>
    rw [units_received]
    rfl
  | accept errand | stop errand =>
    obtain ⟨-, hnew⟩ := hfits.1 _ errand rfl
    cases errand <;> first | rfl | cases hnew
  | release unit outcome =>
    have hgains : Effect.gains (some (.release unit)) = 0 := rfl
    rw [units, units, Effect.losses, hgains, ← Multiset.cons_coe, ← Multiset.singleton_add]
    abel
  | _ => rfl

end Stage

end SharedCell
