import Mathlib
import SharedCell.Cell.Stage
import SharedCell.Proofs.Slot.Pins

/-!
# Steps of a call on a cell

A step of a call either is a step of its call on the slot, or leaves the slot as it is and goes from
one stage without a lock and without a pin to another.
-/

namespace SharedCell

open Text

namespace Stage

/-- The phase that a stage has the slot's call in, as far as the slot can tell. -/
def phase : Stage → Phase
  | .calling phase => phase
  | _ => .done {}

variable {kind : CellKind} {guard : Guard} {action : Action} {facts : ObjectId → Facts}
  {shape : Layout → ObjectId → Shape} {slot next : Slot} {stage later : Stage}
  {effect : Option Effect}

theorem step_calling {phase : Phase}
    (hstep : (calling phase).step kind guard action facts shape slot =
      some (next, later, effect)) :
    (∃ result, phase = .done result ∧ next = slot ∧ later = received kind result action ∧
        effect = none) ∨
      ∃ after, phase.step slot = some (next, after, effect) ∧ later = .calling after := by
  cases phase with
  | done result =>
    simp only [Stage.step, Option.some.injEq, Prod.mk.injEq] at hstep
    obtain ⟨rfl, rfl, rfl⟩ := hstep
    exact .inl ⟨result, rfl, rfl, rfl, rfl⟩
  | _ =>
    right
    simp only [Stage.step, Option.map_eq_some_iff, Prod.exists, Prod.mk.injEq] at hstep
    obtain ⟨_, after, _, hstep, rfl, rfl, rfl⟩ := hstep
    exact ⟨after, hstep, rfl⟩

/-- Until the slot is done with it, a call on a cell is a call on the slot. -/
theorem step_calling_eq {phase : Phase} (hdone : ∀ result, phase ≠ .done result) :
    (calling phase).step kind guard action facts shape slot =
      (phase.step slot).map fun (slot, phase, effect) => (slot, .calling phase, effect) := by
  cases phase with
  | done result => exact absurd rfl (hdone result)
  | _ => rfl

theorem step_calling_of_step {phase after : Phase}
    (hstep : phase.step slot = some (next, after, effect)) :
    (calling phase).step kind guard action facts shape slot =
      some (next, .calling after, effect) := by
  have hdone : ∀ result, phase ≠ .done result := by
    rintro result rfl
    cases hstep
  rw [step_calling_eq hdone, hstep]
  rfl

theorem idle_locking (errand : Errand) : (Phase.locking errand).Idle :=
  ⟨rfl, rfl, rfl⟩

theorem idle_done (result : Yield) : (Phase.done result).Idle :=
  ⟨rfl, rfl, rfl⟩

theorem idle_opening (kind : CellKind) (action : Action) : (action.opening kind).phase.Idle := by
  unfold Action.opening
  split
  · exact idle_done {}
  · exact idle_locking _

theorem phase_giveBack (unit : Option ObjectId) (outcome : Outcome) :
    (giveBack unit outcome).phase = .done {} := by
  cases unit <;> rfl

theorem phase_received (kind : CellKind) (result : Yield) (action : Action) :
    (received kind result action).phase = .done {} := by
  cases action <;> simp only [received] <;> (try split) <;>
    first | rfl | exact phase_giveBack _ _

/-- The moves from a stage, with the slot, the stage and the effect that they lead to. -/
inductive Move (kind : CellKind) (guard : Guard) (action : Action) (facts : ObjectId → Facts)
    (shape : Layout → ObjectId → Shape) (slot : Slot) : Stage → Slot → Stage → Option Effect → Prop
    where
  | accept {new : ObjectId} (errand : Errand) (haccepts : guard.accepts (facts new) = true) :
      Move kind guard action facts shape slot (.asking new errand) slot
        (.calling (.locking errand)) (some (.ask new))
  | stop {new : ObjectId} (errand : Errand) (hrefused : guard.accepts (facts new) = false) :
      Move kind guard action facts shape slot (.asking new errand) slot (.rejecting new)
        (some (.ask new))
  | reject (new : ObjectId) :
      Move kind guard action facts shape slot (.rejecting new) slot (.finished (.rejected new))
        (some (.reject new))
  | call {phase after : Phase} {next : Slot} {effect : Option Effect}
      (hphase : phase.step slot = some (next, after, effect)) :
      Move kind guard action facts shape slot (.calling phase) next (.calling after) effect
  | receive (result : Yield) :
      Move kind guard action facts shape slot (.calling (.done result)) slot
        (received kind result action) none
  | write {layout : Layout} (unit : ObjectId) (version : ℕ) (haction : action = .showText layout) :
      Move kind guard action facts shape slot (.writing unit version) slot
        (.releasing unit (.text
          ((cellShape kind layout (some (shape layout unit)) version).render layout.pretty))) none
  | skip (unit : ObjectId) (version : ℕ) (haction : ∀ layout, action ≠ .showText layout) :
      Move kind guard action facts shape slot (.writing unit version) slot
        (.releasing unit .done) none
  | approve {unit : ObjectId} (haccepts : guard.accepts (facts unit) = true) :
      Move kind guard action facts shape slot (.vetting unit) slot (.releasing unit .done)
        (some (.ask unit))
  | object {unit : ObjectId} (hrefused : guard.accepts (facts unit) = false) :
      Move kind guard action facts shape slot (.vetting unit) slot (.refusing unit)
        (some (.ask unit))
  | refuse (unit : ObjectId) :
      Move kind guard action facts shape slot (.refusing unit) slot
        (.releasing unit (.rejected unit)) (some (.reject unit))
  | release (unit : ObjectId) (outcome : Outcome) :
      Move kind guard action facts shape slot (.releasing unit outcome) slot (.finished outcome)
        (some (.release unit))

/-- Every step is a move. -/
theorem move_of_step (hstep : stage.step kind guard action facts shape slot =
      some (next, later, effect)) :
    Move kind guard action facts shape slot stage next later effect := by
  cases stage with
  | asking new errand =>
    rw [step] at hstep
    split at hstep
    · rename_i haccepts
      cases hstep
      exact .accept errand haccepts
    · rename_i hrefused
      cases hstep
      exact .stop errand (Bool.eq_false_iff.mpr hrefused)
  | calling phase =>
    rcases step_calling hstep with ⟨result, rfl, rfl, rfl, rfl⟩ | ⟨after, hphase, rfl⟩
    · exact .receive result
    · exact .call hphase
  | writing unit version =>
    cases action with
    | showText layout =>
      cases hstep
      exact .write unit version rfl
    | _ =>
      cases hstep
      exact .skip unit version (by simp)
  | vetting unit =>
    rw [step] at hstep
    split at hstep
    · rename_i haccepts
      cases hstep
      exact .approve haccepts
    · rename_i hrefused
      cases hstep
      exact .object (Bool.eq_false_iff.mpr hrefused)
  | rejecting | refusing | releasing =>
    cases hstep
    constructor
  | finished => cases hstep

/-- As far as the slot can tell, a step of a call is a step of its call on the slot, or none. -/
theorem step_phase (hstep : stage.step kind guard action facts shape slot =
      some (next, later, effect)) :
    stage.phase.step slot = some (next, later.phase, effect) ∨
      next = slot ∧ stage.phase.Idle ∧ later.phase.Idle := by
  cases move_of_step hstep with
  | call hphase => exact .inl hphase
  | receive result =>
    exact .inr ⟨rfl, idle_done result, phase_received kind result action ▸ idle_done {}⟩
  | accept errand => exact .inr ⟨rfl, idle_done {}, idle_locking errand⟩
  | _ => exact .inr ⟨rfl, idle_done {}, idle_done {}⟩

end Stage

/-- A step of a call on a cell keeps lock and pins in order. -/
theorem Slot.Sound.stageStep {kind : CellKind} {guard : Guard} {action : Action}
    {facts : ObjectId → Facts} {shape : Layout → ObjectId → Shape} {slot next : Slot}
    {stage later : Stage} {effect : Option Effect} {others : List Phase}
    (hsound : slot.Sound (stage.phase :: others))
    (hstep : stage.step kind guard action facts shape slot = some (next, later, effect)) :
    next.Sound (later.phase :: others) := by
  rcases Stage.step_phase hstep with hphase | ⟨rfl, hbefore, hafter⟩
  · exact hsound.step hphase
  · exact (Slot.sound_cons_idle hafter).mpr ((Slot.sound_cons_idle hbefore).mp hsound)

end SharedCell
