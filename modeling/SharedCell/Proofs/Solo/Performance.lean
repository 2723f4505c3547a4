import Mathlib
import SharedCell.Proofs.Agenda.FramesAbove
import SharedCell.Proofs.Solo.Run

/-!
# Performances

What an operation comes to if the only thread performs it to its end, the scripts of all objects
that it destroys included.  The destruction of an object comes to an end before the operation goes
on that has caused it, and neither depends on what the other one still has to do.
-/

namespace SharedCell

variable {β : Type} [Resident β] {world next between : World β} {reply : Reply}

namespace Solo

/-- The thread ends in a world, with a reply. -/
def Ends (solo : Solo β) (next : World β) (reply : Reply) : Prop :=
  ∃ count, advance Solo.next count solo = (next, [.tidy [] reply])

variable {solo later : Solo β}

theorem next_ended (world : World β) (reply : Reply) :
    Solo.next (world, [.tidy [] reply]) = none := rfl

theorem ends_reply {told : Reply} :
    Ends (world, [.tidy [] told]) next reply ↔ next = world ∧ reply = told := by
  constructor
  · rintro ⟨count, hends⟩
    rw [advance_none (next_ended world told)] at hends
    cases hends
    exact ⟨rfl, rfl⟩
  · rintro ⟨rfl, rfl⟩
    exact ⟨0, rfl⟩

theorem ends_step (hstep : solo.next = some later) :
    Ends solo next reply ↔ Ends later next reply := by
  constructor
  · rintro ⟨count, hends⟩
    cases count with
    | zero =>
      rw [show solo = (next, [.tidy [] reply]) from hends, next_ended] at hstep
      cases hstep
    | succ count =>
      rw [advance, hstep, Option.getD_some] at hends
      exact ⟨count, hends⟩
  · rintro ⟨count, hends⟩
    refine ⟨count + 1, ?_⟩
    rwa [advance, hstep, Option.getD_some]

theorem ends_path {inside : Solo β → Prop} {count : ℕ}
    (hpath : Path Solo.next inside count solo later) :
    Ends solo next reply ↔ Ends later next reply := by
  induction hpath with
  | last hstep => exact ends_step hstep
  | cons hstep _ _ ih => exact (ends_step hstep).trans ih

/-- What a thread ends with is settled. -/
theorem Ends.unique {other : World β} {answer : Reply} (hfirst : Ends solo next reply)
    (hsecond : Ends solo other answer) : other = next ∧ answer = reply := by
  obtain ⟨first, hfirst⟩ := hfirst
  obtain ⟨second, hsecond⟩ := hsecond
  have hlast : ∀ count more : ℕ, ∀ world told, advance Solo.next count solo = (world, [.tidy [] told]) →
      advance Solo.next (count + more) solo = (world, [.tidy [] told]) := by
    intro count more world told hends
    rw [advance_add, hends, advance_none (next_ended world told)]
  have hsame := (hlast second first _ _ hsecond).symm.trans
    (Nat.add_comm first second ▸ hlast first second _ _ hfirst)
  simpa using hsame

/-! ## What is on top -/

/-- Frames on top of others are performed until none of them is left. -/
inductive Clears : World β → List Frame → World β → Prop where
  | nil (world : World β) : Clears world [] world
  | step {world after last : World β} {above rest : List Frame}
      (hstep : Frame.stepAbove 0 world above = some (after, rest))
      (hrest : Clears after rest last) : Clears world above last

theorem next_above {above : List Frame} {frame : Frame} (hnonempty : above ≠ [])
    (hinert : frame.Inert) : Solo.next (world, above ++ [frame]) =
      (Frame.stepAbove 0 world above).map fun (after, rest) => (after, rest ++ [frame]) :=
  Frame.step_above 0 world [] hnonempty hinert

theorem next_above_eq_some {above rest : List Frame} {after : World β} {frame : Frame}
    (hinert : frame.Inert) (hstep : Frame.stepAbove 0 world above = some (after, rest)) :
    Solo.next (world, above ++ [frame]) = some (after, rest ++ [frame]) := by
  have hnonempty : above ≠ [] := by
    rintro rfl
    cases hstep
  rw [next_above hnonempty hinert, hstep, Option.map_some]

/-- A frame goes on from the world in which all is done that was on top of it. -/
theorem ends_cleared {above : List Frame} {frame : Frame} (hinert : frame.Inert)
    (hclears : Clears world above between) :
    Ends (world, above ++ [frame]) next reply ↔ Ends (between, [frame]) next reply := by
  induction hclears with
  | nil world => exact Iff.rfl
  | step hstep _ ih => exact (ends_step (next_above_eq_some hinert hstep)).trans ih

/-- A frame goes on once all is done that was on top of it. -/
theorem ends_above {above : List Frame} {frame : Frame} (hinert : frame.Inert) :
    Ends (world, above ++ [frame]) next reply ↔
      ∃ between, Clears world above between ∧ Ends (between, [frame]) next reply := by
  constructor
  · rintro ⟨count, hends⟩
    induction count generalizing world above with
    | zero =>
      cases above with
      | nil => exact ⟨world, .nil world, 0, hends⟩
      | cons top above =>
        have hlength := congrArg (fun solo : Solo β => solo.2.length) hends
        simp [advance] at hlength
    | succ count ih =>
      by_cases hnonempty : above = []
      · subst hnonempty
        exact ⟨world, .nil world, count + 1, hends⟩
      · rw [advance, next_above hnonempty hinert] at hends
        cases hstep : Frame.stepAbove 0 world above with
        | none =>
          rw [hstep] at hends
          exact ih hends
        | some result =>
          obtain ⟨after, rest⟩ := result
          rw [hstep] at hends
          obtain ⟨between, hclears, hlast⟩ := ih hends
          exact ⟨between, .step hstep hclears, hlast⟩
  · rintro ⟨between, hclears, hends⟩
    exact (ends_cleared hinert hclears).mpr hends

/-- Each chore, with what it leads to. -/
def Tidies : World β → List Chore → World β → Prop
  | world, [], last => last = world
  | world, chore :: chores, last => ∃ between,
      Clears (chore.perform 0 world).1 (chore.perform 0 world).2 between ∧
        Tidies between chores last

/-- What the chores of an operation come to does not depend on the reply. -/
theorem ends_tidy {chores : List Chore} {told : Reply} :
    Ends (world, [.tidy chores told]) next reply ↔ Tidies world chores next ∧ reply = told := by
  induction chores generalizing world with
  | nil => exact ends_reply
  | cons chore chores ih =>
    have hnext : Solo.next (world, [.tidy (chore :: chores) told]) =
        some ((chore.perform 0 world).1, (chore.perform 0 world).2 ++ [.tidy chores told]) := rfl
    rw [ends_step hnext, ends_above (Frame.inert_tidy chores told), Tidies]
    simp only [ih, ← and_assoc, exists_and_right]

/-! ## What is below -/

/-- What the thread comes to does not depend on what it was begun on top of. -/
theorem Ends.on_top {above : List Frame} (hends : Ends (world, above) next reply)
    (below : List Frame) : ∃ count, advance Solo.next count (world, above ++ below) =
      (next, .tidy [] reply :: below) := by
  obtain ⟨count, hends⟩ := hends
  induction count generalizing world above with
  | zero =>
    cases hends
    exact ⟨0, rfl⟩
  | succ count ih =>
    by_cases hreply : ∃ told, above = [.tidy [] told]
    · obtain ⟨told, rfl⟩ := hreply
      rw [advance_none (next_ended world told)] at hends
      cases hends
      exact ⟨0, rfl⟩
    · rw [advance] at hends
      cases hstep : Solo.next (world, above) with
      | none =>
        rw [hstep] at hends
        exact ih hends
      | some later =>
        obtain ⟨after, rest⟩ := later
        rw [hstep] at hends
        obtain ⟨more, hmore⟩ := ih hends
        have hnonempty : above ≠ [] := by
          rintro rfl
          cases hstep
        have hnext : Solo.next (world, above ++ below) = some (after, rest ++ below) := by
          have happend := Frame.step_append 0 world below hnonempty fun told heq =>
            hreply ⟨told, heq⟩
          rw [Solo.next, happend, show Frame.step 0 world above = some (after, rest) from hstep,
            Option.map_some]
        exact ⟨more + 1, by rw [advance, hnext, Option.getD_some, hmore]⟩

end Solo

namespace Operation

/-- An operation that is begun in a world ends in another one with a reply, on top of whatever it
was begun. -/
def Performs (op : Operation) (world next : World β) (reply : Reply) : Prop :=
  ∀ below, ∃ count, Solo.advance Solo.next count
    ((op.start 0 world).1, (op.start 0 world).2 :: below) = (next, .tidy [] reply :: below)

theorem performs_iff {op : Operation} : op.Performs world next reply ↔
    Solo.Ends ((op.start 0 world).1, [(op.start 0 world).2]) next reply :=
  ⟨fun hperforms => hperforms [], fun hends below => hends.on_top below⟩

theorem Performs.unique {op : Operation} {other : World β} {answer : Reply}
    (hfirst : op.Performs world next reply) (hsecond : op.Performs world other answer) :
    other = next ∧ answer = reply :=
  (performs_iff.mp hfirst).unique (performs_iff.mp hsecond)

/-- An operation that has its reply when it is begun. -/
theorem performs_of_start {op : Operation} (hstart : (op.start 0 world).2 = .tidy [] reply) :
    op.Performs world (op.start 0 world).1 reply := by
  rw [performs_iff, hstart]
  exact Solo.ends_reply.mpr ⟨rfl, rfl⟩

end Operation

end SharedCell
