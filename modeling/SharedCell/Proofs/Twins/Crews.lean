import Mathlib
import SharedCell.Proofs.Crew.Run
import SharedCell.Proofs.Twins.Step

/-!
# Crews in step

Crews that have the same to do in worlds that go in step stay so, whatever the schedule: a thread
makes a step in both of them or in neither.
-/

namespace SharedCell

/-- Nothing keeps a thread from beginning an operation. -/
theorem Frame.step_begins {β : Type} [Resident β] {agenda : List Frame} {op : Operation}
    (hop : op? agenda = some op) (thread : ℕ) (world : World β) :
    step thread world agenda ≠ none := by
  unfold op? at hop
  split at hop
  · simp [step]
  · simp [step]
  · cases hop

namespace Crew

variable {β γ : Type} [Resident β] [Resident γ] {bond : Bond β γ} {thread : ℕ}

/-- No operation that a schedule begins asks for the address of an object that is destroyed by
then. -/
def Timely (crew : Crew β) : List ℕ → Prop
  | [] => True
  | thread :: schedule =>
      (∀ agenda ∈ crew.agendas[thread]?, ∀ op ∈ Frame.op? agenda, op.Current crew.world) ∧
      ((crew.step thread).getD crew).Timely schedule

instance decidableTimely : ∀ (crew : Crew β) (schedule : List ℕ), Decidable (crew.Timely schedule)
  | _, [] => .isTrue trivial
  | crew, thread :: schedule =>
      have := decidableTimely ((crew.step thread).getD crew) schedule
      inferInstanceAs (Decidable (_ ∧ _))

/-- Crews with the same to do in worlds that go in step. -/
structure Paired (bond : Bond β γ) (left : Crew β) (right : Crew γ) : Prop where
  worlds : bond.Pairs left.world right.world
  agendas : right.agendas = left.agendas
  suited : ∀ frame ∈ left.agendas.flatten, bond.Suited frame

variable {left : Crew β} {right : Crew γ}

/-- A thread makes a step in both crews or in neither. -/
theorem Paired.step [Lawful β] (hpaired : Paired bond left right) (hsound : left.Sound)
    (hcurrent : bond.full = true ∨
      ∀ agenda ∈ left.agendas[thread]?, ∀ op ∈ Frame.op? agenda, op.Current left.world) :
    (left.step thread = none ∧ right.step thread = none) ∨
      ∃ next twin, left.step thread = some next ∧ right.step thread = some twin ∧
        Paired bond next twin := by
  unfold Crew.step
  rw [hpaired.agendas]
  cases hagenda : left.agendas[thread]? with
  | none => exact .inl ⟨rfl, rfl⟩
  | some agenda =>
    obtain ⟨before, after, hplace, -, hset, -⟩ := exists_place hagenda
    have hmem (frames : List Frame) (frame : Frame) :
        frame ∈ (before ++ frames :: after).flatten ↔
          frame ∈ frames ∨ frame ∈ (before ++ after).flatten := by
      rw [List.flatten_append, List.flatten_append, List.flatten_cons, List.mem_append,
        List.mem_append, List.mem_append, or_left_comm]
    have hworld := hsound.world
    have hsuited := hpaired.suited
    rw [hplace] at hsuited
    rw [Crew.stakes, hplace, List.flatten_append, List.flatten_cons, stakesOf_append,
      stakesOf_append, add_left_comm] at hworld
    rcases Frame.step_pairs thread hpaired.worlds hworld
        (hsound.ordinary_agenda (List.mem_of_getElem? hagenda))
        (fun frame hframe => hsuited frame ((hmem agenda frame).mpr (.inl hframe)))
        (hcurrent.imp_right fun hall => hall agenda hagenda) with
      ⟨hleft, hright⟩ | ⟨next, twin, later, hleft, hright, hnext, hlater⟩
    · exact .inl ⟨by simp [hleft], by simp [hright]⟩
    · refine .inr ⟨{ world := next, agendas := left.agendas.set thread later },
        { world := twin, agendas := left.agendas.set thread later },
        by simp [hleft], by simp [hright], hnext, rfl, ?_⟩
      intro frame hframe
      rw [hset, hmem] at hframe
      rcases hframe with hnew | hother
      · exact hlater frame hnew
      · exact hsuited frame ((hmem agenda frame).mpr (.inr hother))

/-- The same threads can make a step in both crews. -/
theorem Paired.stuck_iff [Lawful β] (hpaired : Paired bond left right) (hsound : left.Sound)
    (thread : ℕ) : right.step thread = none ↔ left.step thread = none := by
  by_cases hbegins : ∃ agenda op, left.agendas[thread]? = some agenda ∧ Frame.op? agenda = some op
  · obtain ⟨agenda, op, hagenda, hop⟩ := hbegins
    obtain ⟨next, hleft⟩ :=
      Option.ne_none_iff_exists'.mp (Frame.step_begins hop thread left.world)
    obtain ⟨twin, hright⟩ :=
      Option.ne_none_iff_exists'.mp (Frame.step_begins hop thread right.world)
    simp [Crew.step, hpaired.agendas, hagenda, hleft, hright]
  · rcases hpaired.step hsound (.inr fun agenda hagenda op hop =>
        absurd ⟨agenda, op, hagenda, hop⟩ hbegins) with
      ⟨hleft, hright⟩ | ⟨next, twin, hleft, hright, -⟩
    · exact iff_of_true hright hleft
    · simp [hleft, hright]

/-- Crews go in step under every schedule. -/
theorem Paired.run [Lawful β] (hpaired : Paired bond left right) (hsound : left.Sound)
    (schedule : List ℕ) (htimely : bond.full = true ∨ left.Timely schedule) :
    Paired bond (left.run schedule) (right.run schedule) := by
  induction schedule generalizing left right with
  | nil => exact hpaired
  | cons thread schedule ih =>
    rw [Crew.run, Crew.run]
    have hlater := htimely.imp_right fun htimely => htimely.2
    rcases hpaired.step hsound (htimely.imp_right fun htimely => htimely.1) with
      ⟨hleft, hright⟩ | ⟨next, twin, hleft, hright, hnext⟩
    · rw [hleft] at hlater
      rw [hleft, hright]
      exact ih hpaired hsound hlater
    · rw [hleft] at hlater
      rw [hleft, hright]
      exact ih hnext (hsound.step hleft) hlater

/-- Crews that start with the same operations are paired, since no cell is there that could be
hidden. -/
theorem start_paired {programs : List (List Operation)} (hopen : bond.hidden = none)
    (hsuits : ∀ ops ∈ programs, Operation.suitsAll bond.full bond.hidden ops = true) :
    Paired bond (start programs) (start programs) where
  worlds :=
    { objects := fun _ => .inl ⟨rfl, rfl⟩
      suited := fun _ _ hobject => by cases hobject
      holders := rfl
      nextHolder := rfl
      raws := rfl
      cells := .nil
      present := fun name hname => by
        rw [hopen] at hname
        cases hname
      log := fun _ => rfl
      told := rfl
      scripts := rfl
      traced := rfl }
  agendas := rfl
  suited frame hframe := by
    obtain ⟨agenda, hagenda, hmem⟩ := List.mem_flatten.mp hframe
    obtain ⟨ops, hops, rfl⟩ := List.mem_map.mp hagenda
    obtain rfl := List.mem_singleton.mp hmem
    rw [Bond.Suited, Frame.suits, hsuits ops hops]
    rfl

end Crew

end SharedCell
