import Mathlib
import SharedCell.Slot.Phase

/-!
# Moves of a call on a slot

All that a step of a call on a slot can be.  The phase tells which move it is, and the move tells
what it leaves of the slot, which phase comes next, and what is done besides.
-/

namespace SharedCell.Phase

/-- The moves from a phase, with the slot, the phase and the effect that they lead to. -/
inductive Move (slot : Slot) : Phase → Slot → Phase → Option Effect → Prop where
  | lock (errand : Errand) (hfree : slot.locked = false) :
      Move slot (.locking errand) slot.lock (.copying errand) none
  | copy (errand : Errand) : Move slot (.copying errand) slot (copied slot errand) none
  | pin (purpose : Purpose) (content : ObjectId) (version : ℕ) :
      Move slot (.pinning purpose content version) (slot.pin version)
        (.parting purpose content version) none
  | part (purpose : Purpose) (content : ObjectId) (version : ℕ) :
      Move slot (.parting purpose content version) slot.unlock
        (.acquiring purpose content version) none
  | acquire (purpose : Purpose) (content : ObjectId) (version : ℕ) :
      Move slot (.acquiring purpose content version) slot (.unpinning purpose content version)
        (some (.acquire content))
  | unpin (purpose : Purpose) (unit : ObjectId) (version : ℕ) :
      Move slot (.unpinning purpose unit version) (slot.unpin version)
        (acquired unit version purpose) none
  | acquireNew (new : ObjectId) :
      Move slot (.acquiringNew new) slot (.storing (some new)) (some (.acquire new))
  | store (new : Option ObjectId) :
      Move slot (.storing new) (slot.store new) (.departing slot.content slot.version) none
  /-- Nothing was displaced. -/
  | depart (version : ℕ) :
      Move slot (.departing none version) slot.unlock (.done { replaced := true }) none
  | displace (old : ObjectId) (version : ℕ) :
      Move slot (.departing (some old) version) slot.unlock (.draining old version 0) none
  /-- What was displaced is still pinned. -/
  | poll (old : ObjectId) {version : ℕ} (rounds : UInt32)
      (hpinned : slot.pins.count version ≠ 0) :
      Move slot (.draining old version rounds) slot (.draining old version (nextRound rounds)) none
  | drain (old : ObjectId) {version : ℕ} (hdrained : slot.pins.count version = 0) :
      Move slot (.draining old version 0) slot (.done { unit := some old, replaced := true }) none
  /-- What was displaced is not pinned any more. -/
  | emerge (old : ObjectId) {version : ℕ} {rounds : UInt32} (hwaited : rounds ≠ 0)
      (hdrained : slot.pins.count version = 0) :
      Move slot (.draining old version rounds) slot (.noting old version rounds) none
  | note (old : ObjectId) (version : ℕ) (rounds : UInt32) :
      Move slot (.noting old version rounds) slot (.done { unit := some old, replaced := true })
        (some (.wait version rounds))
  | leave (result : Yield) : Move slot (.leaving result) slot.unlock (.done result) none
  /-- A read finds the version that it has observed. -/
  | confirm (unit : ObjectId) (version : ℕ) (attempt : UInt32) :
      Move slot (.comparing unit version attempt version) slot.unlock
        (.done { unit := some unit }) none
  /-- A read finds another version. -/
  | outdate (unit : ObjectId) {observed current : ℕ} (attempt : UInt32)
      (hother : current ≠ observed) :
      Move slot (.comparing unit observed attempt current) slot.unlock
        (.reporting unit observed (attempt + 1) current) none
  | report (unit : ObjectId) (observed : ℕ) (attempt : UInt32) (current : ℕ) :
      Move slot (.reporting unit observed attempt current) slot (.discarding unit attempt)
        (some (.retry observed current attempt))
  | discard (unit : ObjectId) (attempt : UInt32) :
      Move slot (.discarding unit attempt) slot (.locking (.read attempt)) (some (.release unit))

variable {slot next : Slot} {phase later : Phase} {effect : Option Effect}

/-- Who finds at the first look that the displaced version is not pinned is done. -/
theorem step_drained {old : ObjectId} {version : ℕ} (hdrained : slot.pins.count version = 0) :
    (draining old version 0).step slot =
      some (slot, .done { unit := some old, replaced := true }, none) := by
  simp [step, hdrained]

/-- Who looks at pins in vain waits for the version that it has displaced. -/
theorem polls_eq_true (hpolls : phase.polls slot = true) :
    ∃ old version rounds, phase = .draining old version rounds ∧ slot.pins.count version ≠ 0 := by
  cases phase with
  | draining old version rounds => exact ⟨old, version, rounds, rfl, by simpa [polls] using hpolls⟩
  | _ => cases hpolls

/-- Every step is a move. -/
theorem move_of_step (hstep : phase.step slot = some (next, later, effect)) :
    Move slot phase next later effect := by
  cases phase with
  | locking errand =>
    rw [step] at hstep
    split at hstep
    · cases hstep
    · rename_i hfree
      cases hstep
      exact .lock errand (Bool.eq_false_iff.mpr hfree)
  | departing old version =>
    cases old with
    | none =>
      cases hstep
      exact .depart version
    | some old =>
      cases hstep
      exact .displace old version
  | draining old version rounds =>
    rw [step] at hstep
    split at hstep
    · rename_i hpinned
      cases hstep
      exact .poll old rounds hpinned
    · rename_i hdrained
      rw [not_not] at hdrained
      split at hstep
      · rename_i hnone
        cases hstep
        exact hnone ▸ .drain old hdrained
      · rename_i hwaited
        cases hstep
        exact .emerge old hwaited hdrained
  | comparing unit observed attempt current =>
    rw [step] at hstep
    split at hstep
    · rename_i hsame
      subst hsame
      cases hstep
      exact .confirm unit current attempt
    · rename_i hother
      cases hstep
      exact .outdate unit attempt hother
  | done => cases hstep
  -- All other phases have one move, which they can always make.
  | copying | pinning | parting | acquiring | unpinning | acquiringNew | storing | noting | leaving
  | reporting | discarding =>
    cases hstep
    constructor

end SharedCell.Phase
