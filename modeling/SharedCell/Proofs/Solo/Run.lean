import Mathlib
import SharedCell.Proofs.Crew.Run

/-!
# A single thread

A crew of one goes on as its only thread does: a world and an agenda lead to the next world and the
next agenda, and there is never more than one way to go.
-/

namespace SharedCell

variable {β : Type}

/-- A world with the agenda of its only thread. -/
abbrev Solo (β : Type) := World β × List Frame

namespace Solo

/-- Makes a number of steps, or as many of them as there are. -/
def advance (step : Solo β → Option (Solo β)) : ℕ → Solo β → Solo β
  | 0, solo => solo
  | count + 1, solo => advance step count ((step solo).getD solo)

/-- Some steps, at least one, with a property of all that lies strictly in between. -/
inductive Path (step : Solo β → Option (Solo β)) (inside : Solo β → Prop) :
    ℕ → Solo β → Solo β → Prop where
  | last {first last : Solo β} (hstep : step first = some last) : Path step inside 1 first last
  | cons {first next last : Solo β} {count : ℕ} (hstep : step first = some next)
      (hinside : inside next) (hrest : Path step inside count next last) :
      Path step inside (count + 1) first last

variable {step : Solo β → Option (Solo β)} {inside : Solo β → Prop} {solo first last : Solo β}
  {count : ℕ}

theorem advance_add (first second : ℕ) (solo : Solo β) :
    advance step (first + second) solo = advance step second (advance step first solo) := by
  induction first generalizing solo with
  | zero => rw [Nat.zero_add, advance]
  | succ first ih => rw [Nat.succ_add, advance, advance, ih]

theorem advance_succ (count : ℕ) (solo : Solo β) :
    advance step (count + 1) solo =
      (step (advance step count solo)).getD (advance step count solo) :=
  advance_add count 1 solo

theorem advance_none (hnone : step solo = none) (count : ℕ) : advance step count solo = solo := by
  induction count with
  | zero => rfl
  | succ count ih => rw [advance, hnone, Option.getD_none, ih]

namespace Path

theorem pos (hpath : Path step inside count first last) : 0 < count := by
  cases hpath <;> exact Nat.succ_pos _

theorem advance_eq (hpath : Path step inside count first last) :
    advance step count first = last := by
  induction hpath with
  | last hstep => rw [advance, hstep, Option.getD_some, advance]
  | cons hstep _ _ ih => rw [advance, hstep, Option.getD_some, ih]

theorem inside_advance (hpath : Path step inside count first last) {index : ℕ}
    (hpos : 0 < index) (hlt : index < count) : inside (advance step index first) := by
  induction hpath generalizing index with
  | last hstep => omega
  | cons hstep hinside _ ih =>
    obtain ⟨index, rfl⟩ := Nat.exists_eq_succ_of_ne_zero hpos.ne'
    rw [advance, hstep, Option.getD_some]
    rcases Nat.eq_zero_or_pos index with rfl | hlater
    · exact hinside
    · exact ih hlater (Nat.lt_of_succ_lt_succ hlt)

theorem mono {other : Solo β → Prop} (hother : ∀ solo, inside solo → other solo)
    (hpath : Path step inside count first last) : Path step other count first last := by
  induction hpath with
  | last hstep => exact .last hstep
  | cons hstep hinside _ ih => exact .cons hstep (hother _ hinside) ih

end Path

variable [Resident β]

/-- The next step of the only thread. -/
def next (solo : Solo β) : Option (Solo β) :=
  Frame.step 0 solo.1 solo.2

def crew (solo : Solo β) : Crew β where
  world := solo.1
  agendas := [solo.2]

theorem crew_step (solo : Solo β) : solo.crew.step 0 = solo.next.map crew := by
  cases hnext : solo.next with
  | none =>
    have hframe : Frame.step 0 solo.1 solo.2 = none := hnext
    simp [Crew.step, crew, hframe]
  | some later =>
    have hframe : Frame.step 0 solo.1 solo.2 = some later := hnext
    simp [Crew.step, crew, hframe]

theorem crew_run (solo : Solo β) (count : ℕ) :
    solo.crew.run (List.replicate count 0) = (advance next count solo).crew := by
  induction count generalizing solo with
  | zero => rfl
  | succ count ih =>
    rw [List.replicate_succ, Crew.run, crew_step, advance]
    cases solo.next with
    | none => exact ih solo
    | some later => exact ih later

end Solo

end SharedCell
