import Mathlib
import SharedCell.Proofs.Slot.Moves

/-!
# How far a call on a slot has to go

If nobody else uses the slot, every step of a call brings it nearer to its end.  A read that finds
its version again has a few steps left; one that does not has to start anew, but only once, since the
version that it copies then is the current one.
-/

namespace SharedCell.Phase

/-- What it costs to have seen a version that is not the current one. -/
def delay (observed current : ℕ) : ℕ :=
  if current = observed then 0 else 11

/-- A bound on the steps of a call to its end, the one on which it hands over what it yields
included, if nobody else replaces the content, and looks at pins that are in vain do not count. -/
def cost (slot : Slot) : Phase → ℕ
  | .locking (.recheck _ observed _) => delay observed slot.version + 4
  | .locking _ => 10
  | .copying (.recheck _ observed _) => delay observed slot.version + 3
  | .copying _ => 9
  | .pinning _ _ version => delay version slot.version + 8
  | .parting _ _ version => delay version slot.version + 7
  | .acquiring _ _ version => delay version slot.version + 6
  | .unpinning _ _ version => delay version slot.version + 5
  | .acquiringNew _ => 6
  | .storing _ => 5
  | .departing .. => 4
  | .draining .. => 3
  | .noting .. | .leaving _ => 2
  | .comparing _ observed _ current => delay observed current + 2
  | .reporting .. => 12
  | .discarding .. => 11
  | .done _ => 1

variable {slot next : Slot} {phase later : Phase} {effect : Option Effect}

theorem delay_self (version : ℕ) : delay version version = 0 :=
  if_pos rfl

theorem cost_copied (slot : Slot) (errand : Errand) :
    (copied slot errand).cost slot < (copying errand).cost slot := by
  cases errand with
  | recheck unit observed attempt => exact Nat.lt_succ_self _
  | version => simp [copied, cost]
  | snapshot | read =>
    simp only [copied]
    split <;> simp [cost, delay_self]
  | exchange expected new observe =>
    simp only [copied]
    split
    · split <;> simp [cost]
    · split <;> simp [cost, delay_self]

theorem cost_acquired (purpose : Purpose) (unit : ObjectId) (version : ℕ) :
    (acquired unit version purpose).cost (slot.unpin version) <
      (unpinning purpose unit version).cost slot := by
  cases purpose with
  | read attempt => exact Nat.lt_succ_self _
  | snapshot | mismatch =>
    simp only [acquired, cost]
    omega

/-- Every step brings the end nearer, unless it is a look at pins that is in vain. -/
theorem cost_step (hstep : phase.step slot = some (next, later, effect)) :
    later.cost next < phase.cost slot + (phase.polls slot).toNat := by
  cases hpolls : phase.polls slot with
  | true =>
    obtain ⟨old, version, rounds, rfl, hpinned⟩ := polls_eq_true hpolls
    rw [step, if_pos hpinned] at hstep
    cases hstep
    exact Nat.lt_succ_self _
  | false =>
    rw [Bool.toNat_false, add_zero]
    cases move_of_step hstep with
    | lock errand => cases errand <;> exact Nat.lt_succ_self _
    | copy errand => exact cost_copied _ errand
    | unpin purpose unit version => exact cost_acquired purpose unit version
    | outdate unit attempt hother => simp [cost, delay, hother]
    | confirm =>
      simp only [cost]
      omega
    | poll old rounds hpinned => simp [polls, hpinned] at hpolls
    | _ => simp [cost, Slot.pin, Slot.unlock]

end SharedCell.Phase
