import Mathlib
import SharedCell.Proofs.Agenda.Opening
import SharedCell.Proofs.Crew.Run

/-!
# Interrupted threads

Between the steps of all threads, what lies below the top of an agenda was interrupted where nobody
waits for it.
-/

namespace SharedCell

variable {β : Type} [Resident β]

namespace Crew

variable {crew next : Crew β} {thread : ℕ}

/-- No thread was interrupted where others would wait for it. -/
def AtRest (crew : Crew β) : Prop :=
  ∀ agenda ∈ crew.agendas, ∀ frame ∈ agenda.tail, frame.AtRest

omit [Resident β] in
theorem start_atRest (programs : List (List Operation)) :
    (start programs : Crew β).AtRest := by
  intro agenda hagenda
  obtain ⟨ops, -, rfl⟩ := List.mem_map.mp hagenda
  simp

theorem AtRest.step (hrest : crew.AtRest) (hsound : crew.Sound)
    (hstep : crew.step thread = some next) : next.AtRest := by
  obtain ⟨agenda, world, later, hagenda, hframe, rfl⟩ := step_eq_some hstep
  have hmem := List.mem_of_getElem? hagenda
  intro other hother
  rcases List.mem_or_eq_of_mem_set hother with hbefore | rfl
  · exact hrest other hbefore
  · exact Frame.atRest_step (hrest agenda hmem) (hsound.ordinary_agenda hmem) hframe

theorem AtRest.run [Lawful β] (hrest : crew.AtRest) (hsound : crew.Sound) (schedule : List ℕ) :
    (crew.run schedule).AtRest :=
  hsound.run_keeps AtRest (fun _ _ _ hsound hrest hstep => hrest.step hsound hstep) hrest schedule

end Crew

end SharedCell
