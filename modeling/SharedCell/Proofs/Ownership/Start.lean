import Mathlib
import SharedCell.Proofs.Ownership.Start.Cells

/-!
# Beginnings of ordinary operations

Whatever an ordinary operation begins with, the world stays sound.  An operation that fails its
checks has its reply at once and has changed nothing.
-/

namespace SharedCell

open Operation

variable {β : Type} [Resident β] {world next : World β} {stakes : Stakes} {thread : ℕ}
  {frame : Frame} {op : Operation}

namespace Attempt

theorem rounds_begun {count : Option ℕ} {body : Option (List Operation)}
    (hsound : world.Sound stakes) (hbody : Operation.ordinary (.rounds count body) = true)
    (hrun : (startRounds count body : Attempt β Frame).run world = .ok (frame, next)) :
    Begun stakes next frame := by
  rw [startRounds] at hrun
  obtain ⟨count, -, hrun⟩ := bind_field hrun
  obtain ⟨body, rfl, hrest⟩ := bind_field hrun
  rw [Operation.ordinary] at hbody
  split at hrest
  · exact (replies_answer _).begun hsound hrest
  · obtain ⟨rfl, rfl⟩ := run_pure.mp hrest
    refine ⟨?_, ?_⟩
    · rw [Frame.stakes, zero_add]
      exact hsound
    · rw [Frame.ordinary, hbody, Bool.and_self]

theorem begin_begun [Lawful β] (hsound : world.Sound stakes) (hordinary : op.ordinary = true)
    (hrun : (begin? thread op : Attempt β Frame).run world = .ok (frame, next)) :
    Begun stakes next frame := by
  cases op with
  | malformed => exact (run_throw.mp hrun).elim
  | alloc object value mutability refs script =>
    rw [Operation.ordinary] at hordinary
    exact alloc_begun hsound hordinary hrun
  | clone source target => exact clone_begun hsound hrun
  | drop source => exact drop_begun hsound hrun
  | freeze source => exact freeze_begun hsound hrun
  | info source => exact (replies_info source).begun hsound hrun
  | mutate value source => exact mutate_begun hsound hrun
  | sameObject left right => exact (replies_sameObject thread left right).begun hsound hrun
  | compare left right => exact (replies_compare left right).begun hsound hrun
  | hash source => exact (replies_hash source).begun hsound hrun
  | identity source => exact (replies_identity source).begun hsound hrun
  | debug source layout => exact (replies_debug source layout).begun hsound hrun
  | display source layout => exact (replies_display source layout).begun hsound hrun
  | intoRaw raw source => exact intoRaw_begun hsound hrun
  | fromRaw target raw => exact fromRaw_begun hsound hrun
  | check source guard => exact check_begun hsound hrun
  | ensure source guard => exact ensure_begun hsound hrun
  | compareErrors left right => exact compareErrors_begun hsound hrun
  | newCell cell guard value kind origin source => exact newCell_begun hsound hrun
  | dropCell cell => exact dropCell_begun hsound hrun
  | intoInner cell target => exact intoInner_begun hsound hrun
  | freezeCell cell => exact freezeCell_begun hsound hrun
  | onCell cell verb new expected target => exact onCell_begun hsound hrun
  | rounds count body => exact rounds_begun hsound hordinary hrun
  | race cell timing reader script target =>
    rw [Operation.ordinary] at hordinary
    cases hordinary
  | stress cell count threads counted =>
    rw [Operation.ordinary] at hordinary
    cases hordinary

end Attempt

theorem World.Sound.start [Lawful β] (hsound : world.Sound stakes)
    (hordinary : op.ordinary = true) (thread : ℕ) :
    Begun stakes (op.start thread world).1 (op.start thread world).2 := by
  unfold Operation.start
  split
  · rename_i frame next hrun
    exact Attempt.begin_begun hsound hordinary hrun
  · exact begun_answer hsound _

end SharedCell
