import Mathlib
import SharedCell.Agenda.Step

/-!
# What is on top of a frame

A step of a thread depends on the top of its agenda only, and so does a number of steps until they
hand over a reply.  What lies below is the same afterwards, whatever it is.
-/

namespace SharedCell.Frame

variable {β : Type} [Resident β]

/-- A frame that takes no notice of replies. -/
def Inert : Frame → Prop
  | .call _ | .mutate .. | .tidy .. | .surrender _ => True
  | _ => False

theorem inert_call (active : Call) : (call active).Inert := trivial

theorem inert_tidy (chores : List Chore) (reply : Reply) : (tidy chores reply).Inert := trivial

omit [Resident β] in
theorem Inert.receive {frame : Frame} (hinert : frame.Inert) (world : World β) (reply : Reply) :
    receive world reply frame = (world, frame) := by
  cases frame <;> first | rfl | exact hinert.elim

/-- Nothing is left of an operation that has its reply. -/
theorem step_append (thread : ℕ) (world : World β) {above : List Frame} (below : List Frame)
    (hnonempty : above ≠ []) (hreply : ∀ reply, above ≠ [.tidy [] reply]) :
    step thread world (above ++ below) =
      (step thread world above).map fun (next, later) => (next, later ++ below) := by
  cases above with
  | nil => exact absurd rfl hnonempty
  | cons top above =>
    cases top with
    | call active =>
      simp only [List.cons_append, step, Option.map_map]
      cases active.step world thread with
      | none => rfl
      | some result => simp
    | mutate holder obj payload stateSeen =>
      simp only [List.cons_append, step]
      split_ifs <;> rfl
    | tidy chores reply =>
      cases chores with
      | nil =>
        cases above with
        | nil => exact absurd rfl (hreply reply)
        | cons frame above => simp [step]
      | cons chore chores => simp [step]
    | script owner ops => cases ops <;> simp [step]
    | surrender owner =>
      simp only [List.cons_append, step]
      split <;> simp
    | rounds left body ops replies => cases ops <;> cases left <;> simp [step]
    | race contest => rfl
    | stress tally => simp [step]

/-- The next step of what is on top of a frame that takes no notice of replies. -/
def stepAbove (thread : ℕ) (world : World β) : List Frame → Option (World β × List Frame)
  | [.tidy [] _] => some (world, [])
  | above => step thread world above

theorem step_above (thread : ℕ) (world : World β) {above : List Frame} {frame : Frame}
    (below : List Frame) (hnonempty : above ≠ []) (hinert : frame.Inert) :
    step thread world (above ++ frame :: below) =
      (stepAbove thread world above).map fun (next, later) => (next, later ++ frame :: below) := by
  by_cases hreply : ∃ reply, above = [.tidy [] reply]
  · obtain ⟨reply, rfl⟩ := hreply
    simp [step, stepAbove, hinert.receive]
  · have hreply : ∀ reply, above ≠ [.tidy [] reply] := fun reply heq => hreply ⟨reply, heq⟩
    have habove : stepAbove thread world above = step thread world above := by
      unfold stepAbove
      split
      · exact absurd rfl (hreply _)
      · rfl
    rw [habove, step_append thread world (frame :: below) hnonempty hreply]

end SharedCell.Frame
