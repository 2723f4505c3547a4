import Mathlib
import SharedCell.Proofs.Slot.Moves

/-!
# Lock and pins

Any number of calls are in progress on a slot, each in a phase of its own.  The lock is held by
exactly one of them while it is taken, each pin counter is the number of readers that pinned a
version of its parity, and a pinned content is still owned: by the slot as long as its version is
the current one, and from then on by the call that displaced it, which cannot end its wait before
the pin is dropped.
-/

namespace SharedCell

namespace Phase

/-- Whether the phase keeps a pin on a version of the parity of `version`. -/
def pinsLike (version : ℕ) (phase : Phase) : Bool :=
  phase.pinned?.any fun pinned => pinned % 2 == version % 2

/-- The content that is pinned between two steps, with its version. -/
def pinnedContent? : Phase → Option (ObjectId × ℕ)
  | .parting _ content version | .acquiring _ content version => some (content, version)
  | .unpinning _ unit version => some (unit, version)
  | _ => none

/-- The content that the call displaced and still keeps in the slot's place, with its version. -/
def displaced? : Phase → Option (ObjectId × ℕ)
  | .departing (some old) version | .draining old version _ => some (old, version)
  | _ => none

/-- A phase in which the slot cannot tell the call from one that has not begun. -/
def Idle (phase : Phase) : Prop :=
  phase.holdsLock = false ∧ phase.pinned? = none ∧ phase.displaced? = none

theorem pinsLike_of_pinnedContent {phase : Phase} {content version : ℕ}
    (hpinned : phase.pinnedContent? = some (content, version)) : phase.pinsLike version := by
  cases phase <;> simp_all [pinnedContent?, pinsLike, pinned?]

end Phase

namespace Pins

theorem count_pin (pins : Pins) (version other : ℕ) :
    (pins.pin version).count other =
      pins.count other + if version % 2 = other % 2 then 1 else 0 := by
  unfold pin count
  rcases Nat.mod_two_eq_zero_or_one version with hversion | hversion <;>
    rcases Nat.mod_two_eq_zero_or_one other with hother | hother <;> simp [hversion, hother]

theorem count_unpin (pins : Pins) (version other : ℕ) :
    (pins.unpin version).count other =
      pins.count other - if version % 2 = other % 2 then 1 else 0 := by
  unfold unpin count
  rcases Nat.mod_two_eq_zero_or_one version with hversion | hversion <;>
    rcases Nat.mod_two_eq_zero_or_one other with hother | hother <;> simp [hversion, hother]

end Pins

theorem countP_cons_toNat {α : Type*} (test : α → Bool) (head : α) (tail : List α) :
    (head :: tail).countP test = tail.countP test + (test head).toNat := by
  rw [List.countP_cons]
  cases test head <;> rfl

namespace Slot

/-- What holds of a slot between the steps of the calls that are in progress on it. -/
structure Sound (slot : Slot) (phases : List Phase) : Prop where
  lock : phases.countP Phase.holdsLock = slot.locked.toNat
  pins : ∀ version, slot.pins.count version = phases.countP (Phase.pinsLike version)
  copied : ∀ purpose content version, .pinning purpose content version ∈ phases →
    slot.content = some content ∧ slot.version = version
  pinned : ∀ phase ∈ phases, ∀ content version, phase.pinnedContent? = some (content, version) →
    (slot.content = some content ∧ slot.version = version) ∨
      ∃ other ∈ phases, other.displaced? = some (content, version)


variable {slot next : Slot} {phase after : Phase} {others : List Phase}

/-- A version that no pin counter shows is pinned by no call. -/
theorem Sound.not_pinned {phases : List Phase} (hsound : slot.Sound phases)
    (hphase : phase ∈ phases) {content version : ℕ}
    (hpinned : phase.pinnedContent? = some (content, version)) :
    slot.pins.count version ≠ 0 := by
  rw [hsound.pins version]
  exact (List.countP_pos_iff.mpr ⟨phase, hphase, Phase.pinsLike_of_pinnedContent hpinned⟩).ne'

theorem Sound.locked {phases : List Phase} (hsound : slot.Sound phases)
    (hphase : phase ∈ phases) (hholds : phase.holdsLock = true) : slot.locked = true := by
  have hpos : 0 < phases.countP Phase.holdsLock := List.countP_pos_iff.mpr ⟨phase, hphase, hholds⟩
  rw [hsound.lock] at hpos
  cases hlocked : slot.locked
  · simp [hlocked] at hpos
  · rfl

theorem Sound.perm {phases phases' : List Phase} (hperm : phases.Perm phases')
    (hsound : slot.Sound phases) : slot.Sound phases' where
  lock := hperm.countP_eq _ ▸ hsound.lock
  pins version := hperm.countP_eq _ ▸ hsound.pins version
  copied purpose content version hmem :=
    hsound.copied purpose content version (hperm.mem_iff.mpr hmem)
  pinned other hmem content version hother := by
    rcases hsound.pinned other (hperm.mem_iff.mpr hmem) content version hother with
      hcurrent | ⟨displacer, hdisplacer, hold⟩
    · exact .inl hcurrent
    · exact .inr ⟨displacer, hperm.mem_iff.mp hdisplacer, hold⟩

/-- Idle phases come and go. -/
theorem sound_cons_idle (hidle : phase.Idle) :
    slot.Sound (phase :: others) ↔ slot.Sound others := by
  obtain ⟨hlock, hpinned, hdisplaced⟩ := hidle
  have hlike (version : ℕ) : phase.pinsLike version = false := by
    rw [Phase.pinsLike, hpinned]
    rfl
  have hcontent : ∀ content version, phase.pinnedContent? ≠ some (content, version) := by
    intro content version heq
    have := Phase.pinsLike_of_pinnedContent heq
    rw [hlike] at this
    cases this
  constructor
  · intro hsound
    constructor
    · simpa [List.countP_cons, hlock] using hsound.lock
    · intro version
      simpa [List.countP_cons, hlike] using hsound.pins version
    · intro purpose content version hmem
      exact hsound.copied purpose content version (List.mem_cons_of_mem phase hmem)
    · intro other hmem content version hother
      have hkept := hsound.pinned other (List.mem_cons_of_mem phase hmem) content version hother
      simpa [hdisplaced] using hkept
  · intro hsound
    constructor
    · simpa [List.countP_cons, hlock] using hsound.lock
    · intro version
      simpa [List.countP_cons, hlike] using hsound.pins version
    · intro purpose content version hmem
      rcases List.mem_cons.mp hmem with rfl | hmem
      · cases hlock
      · exact hsound.copied purpose content version hmem
    · intro other hmem content version hother
      rcases List.mem_cons.mp hmem with rfl | hmem
      · exact absurd hother (hcontent content version)
      · simpa [hdisplaced] using hsound.pinned other hmem content version hother

/-- The lock excludes all others. -/
theorem Sound.alone (hsound : slot.Sound (phase :: others)) (hholds : phase.holdsLock = true) :
    ∀ other ∈ others, other.holdsLock = false := by
  have hlock := hsound.lock
  rw [countP_cons_toNat, hholds] at hlock
  have hnone : others.countP Phase.holdsLock = 0 := by
    have := Bool.toNat_le slot.locked
    simp only [Bool.toNat_true] at hlock
    omega
  simpa [List.countP_eq_zero] using hnone

/-- A step that leaves content and version as they are. -/
theorem Sound.advance (hsound : slot.Sound (phase :: others))
    (hcontent : next.content = slot.content) (hversion : next.version = slot.version)
    (hlock : after.holdsLock.toNat + slot.locked.toNat =
      phase.holdsLock.toNat + next.locked.toNat)
    (hpins : ∀ version, next.pins.count version + (phase.pinsLike version).toNat =
      slot.pins.count version + (after.pinsLike version).toNat)
    (hcopied : ∀ purpose content version, after = .pinning purpose content version →
      slot.content = some content ∧ slot.version = version)
    (hpinned : ∀ content version, after.pinnedContent? = some (content, version) →
      phase.pinnedContent? = some (content, version) ∨
        slot.content = some content ∧ slot.version = version)
    (hdisplaced : ∀ content version, phase.displaced? = some (content, version) →
      after.displaced? = some (content, version) ∨ slot.pins.count version = 0) :
    next.Sound (after :: others) := by
  have hkept : ∀ other ∈ phase :: others, ∀ content version,
      other.pinnedContent? = some (content, version) →
        (slot.content = some content ∧ slot.version = version) ∨
          ∃ displacer ∈ after :: others, displacer.displaced? = some (content, version) := by
    intro other hother content version hother'
    rcases hsound.pinned other hother content version hother' with
      hcurrent | ⟨displacer, hmem, hold⟩
    · exact .inl hcurrent
    · right
      rcases List.mem_cons.mp hmem with rfl | hmem
      · rcases hdisplaced content version hold with hafter | hfree
        · exact ⟨after, List.mem_cons_self, hafter⟩
        · exact absurd hfree (hsound.not_pinned hother hother')
      · exact ⟨displacer, List.mem_cons_of_mem after hmem, hold⟩
  constructor
  · have hbefore := hsound.lock
    rw [countP_cons_toNat] at hbefore ⊢
    omega
  · intro version
    have hbefore := hsound.pins version
    have hdelta := hpins version
    rw [countP_cons_toNat] at hbefore ⊢
    omega
  · intro purpose content version hmem
    rw [hcontent, hversion]
    rcases List.mem_cons.mp hmem with heq | hmem
    · exact hcopied purpose content version heq.symm
    · exact hsound.copied purpose content version (List.mem_cons_of_mem phase hmem)
  · intro other hmem content version hother
    rw [hcontent, hversion]
    rcases List.mem_cons.mp hmem with rfl | hmem
    · rcases hpinned content version hother with hphase | hcurrent
      · exact hkept phase List.mem_cons_self content version hphase
      · exact .inl hcurrent
    · exact hkept other (List.mem_cons_of_mem phase hmem) content version hother

/-- The holder of the lock replaces the content.  Whoever pinned the old content did so at the
version that is now displaced. -/
theorem Sound.store {new : Option ObjectId} (hsound : slot.Sound (.storing new :: others)) :
    (slot.store new).Sound (.departing slot.content slot.version :: others) := by
  have halone := hsound.alone rfl
  constructor
  · simpa [List.countP_cons, Phase.holdsLock, Slot.store] using hsound.lock
  · intro version
    simpa [List.countP_cons, Phase.pinsLike, Phase.pinned?, Slot.store] using hsound.pins version
  · intro purpose content version hmem
    rcases List.mem_cons.mp hmem with heq | hmem
    · cases heq
    · exact absurd (halone _ hmem) (by simp [Phase.holdsLock])
  · intro other hmem content version hother
    right
    rcases List.mem_cons.mp hmem with rfl | hmem
    · simp [Phase.pinnedContent?] at hother
    · rcases hsound.pinned other (List.mem_cons_of_mem _ hmem) content version hother with
        ⟨hcontent, hversion⟩ | ⟨displacer, hdisplacer, hold⟩
      · exact ⟨_, List.mem_cons_self, by simp [hcontent, hversion, Phase.displaced?]⟩
      · rcases List.mem_cons.mp hdisplacer with rfl | hdisplacer
        · simp [Phase.displaced?] at hold
        · exact ⟨displacer, List.mem_cons_of_mem _ hdisplacer, hold⟩

/-- What a call goes on to after copying: only a content that it has copied is to be pinned. -/
theorem copied_holdsLock (slot : Slot) (errand : Errand) :
    (Phase.copied slot errand).holdsLock = true := by
  cases errand <;> simp only [Phase.copied] <;> (repeat' split) <;> rfl

theorem copied_pinned? (slot : Slot) (errand : Errand) :
    (Phase.copied slot errand).pinned? = none := by
  cases errand <;> simp only [Phase.copied] <;> (repeat' split) <;> rfl

theorem copied_eq_pinning {errand : Errand} {purpose : Purpose} {content version : ℕ}
    (hcopied : Phase.copied slot errand = .pinning purpose content version) :
    slot.content = some content ∧ slot.version = version := by
  cases errand <;> simp only [Phase.copied] at hcopied <;> (repeat' split at hcopied) <;>
    simp_all

theorem Sound.step {effect : Option Effect} (hsound : slot.Sound (phase :: others))
    (hstep : phase.step slot = some (next, after, effect)) : next.Sound (after :: others) := by
  cases Phase.move_of_step hstep with
  | lock errand hfree =>
    apply hsound.advance <;>
      simp_all [Slot.lock, Phase.holdsLock, Phase.pinsLike, Phase.pinned?, Phase.pinnedContent?,
        Phase.displaced?]
  | copy errand =>
    have hpinned := copied_pinned? slot errand
    apply hsound.advance rfl rfl
    · rw [copied_holdsLock, Phase.holdsLock]
    · intro version
      rw [Phase.pinsLike, Phase.pinsLike, hpinned]
      rfl
    · intro purpose content version heq
      exact copied_eq_pinning heq
    · intro content version hcontent
      have := Phase.pinsLike_of_pinnedContent hcontent
      rw [Phase.pinsLike, hpinned] at this
      cases this
    · simp [Phase.displaced?]
  | pin purpose content version =>
    have hcurrent := hsound.copied purpose content version List.mem_cons_self
    refine hsound.advance rfl rfl ?_ ?_ ?_ ?_ ?_
    · simp [Phase.holdsLock, Slot.pin]
    · intro other
      by_cases hparity : version % 2 = other % 2 <;>
        simp [Slot.pin, Pins.count_pin, Phase.pinsLike, Phase.pinned?, hparity]
    · simp
    · intro content' version' heq
      simp only [Phase.pinnedContent?, Option.some.injEq, Prod.mk.injEq] at heq
      exact .inr (heq.1 ▸ heq.2 ▸ hcurrent)
    · simp [Phase.displaced?]
  | unpin purpose unit version =>
    have hshown : ∀ other, version % 2 = other % 2 → slot.pins.count other ≠ 0 := by
      intro other hparity
      rw [hsound.pins other, List.countP_cons]
      simp [Phase.pinsLike, Phase.pinned?, hparity]
    refine hsound.advance rfl rfl ?_ ?_ ?_ ?_ ?_
    · cases purpose <;> simp [Phase.acquired, Phase.holdsLock, Slot.unpin]
    · intro other
      have hbefore : (Phase.unpinning purpose unit version).pinsLike other =
          (version % 2 == other % 2) := rfl
      have hafter : (Phase.acquired unit version purpose).pinsLike other = false := by
        cases purpose <;> rfl
      rw [hbefore, hafter, Slot.unpin, Pins.count_unpin]
      by_cases hparity : version % 2 = other % 2
      · simpa [hparity] using Nat.sub_add_cancel (Nat.pos_of_ne_zero (hshown other hparity))
      · simp [hparity]
    · cases purpose <;> simp [Phase.acquired]
    · cases purpose <;> simp [Phase.acquired, Phase.pinnedContent?]
    · simp [Phase.displaced?]
  | store new => exact hsound.store
  -- The lock is given up.
  | part | depart | displace | leave | confirm | outdate =>
    have hlocked := hsound.locked List.mem_cons_self rfl
    apply hsound.advance <;>
      simp_all [Slot.unlock, Phase.holdsLock, Phase.pinsLike, Phase.pinned?,
        Phase.pinnedContent?, Phase.displaced?]
  -- The slot stays as it is.
  | acquire | acquireNew | poll | drain | emerge | note | report | discard =>
    apply hsound.advance <;>
      simp_all [Phase.holdsLock, Phase.pinsLike, Phase.pinned?, Phase.pinnedContent?,
        Phase.displaced?]

end Slot
end SharedCell
