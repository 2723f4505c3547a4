import Mathlib
import SharedCell.Heap.Flagged
import SharedCell.Heap.Staged

/-!
# Lawful residents

What all that is said of sessions needs of a heap: units are counted one by one unless the object is
permanent, the last one to be released is noticed, and neither units nor freezing change what can be
seen of an object beyond what they are for.  Both heaps are of this kind.
-/

namespace SharedCell

/-- Objects that count their units as they should. -/
class Lawful (β : Type) [Resident β] : Prop where
  count_acquire (body : β) : Counted.isPermanent body = false →
    Resident.count (Counted.acquire body) = Resident.count body + 1
  acquire_permanent (body : β) : Counted.isPermanent body = true → Counted.acquire body = body
  count_release (body : β) : Counted.isPermanent body = false → 1 ≤ Resident.count body →
    Resident.count (Counted.release body).1 = Resident.count body - 1
  last_release (body : β) : Counted.isPermanent body = false → 1 ≤ Resident.count body →
    ((Counted.release body).2 = true ↔ Resident.count body = 1)
  release_permanent (body : β) : Counted.isPermanent body = true →
    Counted.release body = (body, false)
  facts_acquire (body : β) : Resident.facts (Counted.acquire body) = Resident.facts body
  facts_release (body : β) : Resident.facts (Counted.release body).1 = Resident.facts body
  count_freeze (body : β) : Resident.count (Resident.freeze body) = Resident.count body
  facts_freeze (body : β) : Resident.facts (Resident.freeze body) =
    if Counted.isPermanent body then Resident.facts body
    else { Resident.facts body with frozen := true }
  count_setPayload (body : β) (payload : Payload) :
    Resident.count (Resident.setPayload body payload) = Resident.count body
  facts_setPayload (body : β) (payload : Payload) :
    Resident.facts (Resident.setPayload body payload) = { Resident.facts body with payload }
  permanent_make {mutability : Mutability} {payload : Payload} {body : β} :
    Resident.make mutability payload = some body →
      Counted.isPermanent body = decide (mutability = .permanent)
  count_make {mutability : Mutability} {payload : Payload} {body : β} :
    Resident.make mutability payload = some body →
      Resident.count body = if mutability = .permanent then 0 else 1
  isMutable_eq (body : β) :
    Resident.isMutable body = (!Counted.isFrozen body && !Counted.isPermanent body)

namespace Lawful

variable {β : Type} [Resident β]

theorem permanent_of_facts {body other : β} (hfacts : Resident.facts other = Resident.facts body) :
    Counted.isPermanent other = Counted.isPermanent body :=
  congrArg Facts.permanent hfacts

variable [Lawful β]

@[simp]
theorem permanent_acquire (body : β) :
    Counted.isPermanent (Counted.acquire body) = Counted.isPermanent body :=
  permanent_of_facts (facts_acquire body)

@[simp]
theorem permanent_release (body : β) :
    Counted.isPermanent (Counted.release body).1 = Counted.isPermanent body :=
  permanent_of_facts (facts_release body)

@[simp]
theorem permanent_setPayload (body : β) (payload : Payload) :
    Counted.isPermanent (Resident.setPayload body payload) = Counted.isPermanent body :=
  congrArg Facts.permanent (facts_setPayload body payload)

@[simp]
theorem permanent_freeze (body : β) :
    Counted.isPermanent (Resident.freeze body) = Counted.isPermanent body := by
  have hfacts := facts_freeze body
  split at hfacts
  · exact permanent_of_facts hfacts
  · exact congrArg Facts.permanent hfacts

end Lawful

instance : Lawful Staged where
  count_acquire body hcounted := by
    simp_all [Resident.count, Counted.acquire, Counted.isPermanent, Staged.acquire]
  acquire_permanent body hpermanent := by
    simp_all [Counted.acquire, Counted.isPermanent, Staged.acquire]
  count_release body hcounted hpos := by
    simp_all [Resident.count, Counted.release, Counted.isPermanent, Staged.release]
  last_release body hcounted hpos := by
    simp_all [Resident.count, Counted.release, Counted.isPermanent, Staged.release]
  release_permanent body hpermanent := by
    simp_all [Counted.release, Counted.isPermanent, Staged.release]
  facts_acquire body := by
    by_cases hstage : body.stage = .permanent <;>
      simp [Resident.facts, Counted.acquire, Counted.isFrozen, Counted.isPermanent,
        Resident.payload, Staged.acquire, hstage]
  facts_release body := by
    by_cases hstage : body.stage = .permanent <;>
      simp [Resident.facts, Counted.release, Counted.isFrozen, Counted.isPermanent,
        Resident.payload, Staged.release, hstage]
  count_freeze body := by
    by_cases hstage : body.stage = .mutable <;>
      simp [Resident.count, Resident.freeze, Staged.freeze, hstage]
  facts_freeze body := by
    cases hstage : body.stage <;>
      simp [Resident.facts, Resident.freeze, Counted.isFrozen, Counted.isPermanent,
        Resident.payload, Staged.freeze, hstage]
  count_setPayload body payload := rfl
  facts_setPayload body payload := rfl
  permanent_make hmake := by
    obtain rfl := Option.some.inj hmake
    rfl
  count_make hmake := by
    obtain rfl := Option.some.inj hmake
    simp only [Resident.count, Staged.make]
    split <;> rfl
  isMutable_eq body := by
    cases hstage : body.stage <;>
      simp [Resident.isMutable, Counted.isFrozen, Counted.isPermanent, hstage]

instance : Lawful Flagged where
  count_acquire body hcounted := rfl
  acquire_permanent body hpermanent := by cases hpermanent
  count_release body hcounted hpos := rfl
  last_release body hcounted hpos := beq_iff_eq
  release_permanent body hpermanent := by cases hpermanent
  facts_acquire body := rfl
  facts_release body := rfl
  count_freeze body := rfl
  facts_freeze body := rfl
  count_setPayload body payload := rfl
  facts_setPayload body payload := rfl
  permanent_make {mutability _ _} hmake := by
    cases mutability <;> first | rfl | cases hmake
  count_make {mutability _ _} hmake := by
    cases mutability <;> cases hmake <;> rfl
  isMutable_eq body := by
    simp [Resident.isMutable, Counted.isFrozen, Counted.isPermanent]

/-- Objects that nothing is left of when a unit is taken and given back. -/
class Restoring (β : Type) [Resident β] : Prop extends Lawful β where
  release_acquire (body : β) : Counted.isPermanent body = true ∨ 1 ≤ Resident.count body →
    Counted.release (Counted.acquire body) = (body, false)

instance : Restoring Staged where
  release_acquire body hunits := by
    by_cases hstage : body.stage = .permanent
    · simp [Counted.release, Counted.acquire, Staged.release, Staged.acquire, hstage]
    · have hpos : (1 : ℤ) ≤ body.count := hunits.resolve_left (by simpa [Counted.isPermanent])
      have hne : body.count ≠ 0 := by omega
      simp [Counted.release, Counted.acquire, Staged.release, Staged.acquire, hstage, hne]

instance : Restoring Flagged where
  release_acquire body hunits := by
    have hpos : 1 ≤ body.count := hunits.resolve_left (by simp [Counted.isPermanent])
    have hne : body.count ≠ 0 := by omega
    simp [Counted.release, Counted.acquire, Flagged.release, Flagged.acquire, hne]

/-- Objects whose texts do not tell how many units there are. -/
class Reticent (β : Type) [Resident β] : Prop where
  shape_acquire (layout : Text.Layout) (body : β) :
    Resident.shape layout (Counted.acquire body) = Resident.shape layout body
  shape_release (layout : Text.Layout) (body : β) :
    Resident.shape layout (Counted.release body).1 = Resident.shape layout body

instance : Reticent Staged where
  shape_acquire layout body := by
    by_cases hstage : body.stage = .permanent <;>
      simp [Resident.shape, Counted.acquire, Staged.shape, Staged.acquire, hstage]
  shape_release layout body := by
    by_cases hstage : body.stage = .permanent <;>
      simp [Resident.shape, Counted.release, Staged.shape, Staged.release, hstage]

instance : Reticent Flagged where
  shape_acquire _ _ := rfl
  shape_release _ _ := rfl

end SharedCell
