import Mathlib
import SharedCell.Proofs.Slot.Register
import SharedCell.Proofs.Cell.Stage

/-!
# Versions that calls refer to

A call that keeps a pin or a displaced content knows the version that it belongs to.  A content that
is about to be pinned is the present one, a pinned content is the present one as long as its version
is, and a displaced content belongs to an earlier version.  A call that does not hold the lock
cannot tell what content and version are.
-/

namespace SharedCell

namespace Phase

variable {slot next : Slot} {phase later : Phase} {effect : Option Effect} {register : Register}

/-- What a call goes on to once it has read content and version: it pins the content, gives up the
lock, looks at the version, or goes about to store. -/
theorem copied_cases (slot : Slot) (errand : Errand) :
    (∃ purpose content, slot.content = some content ∧
      copied slot errand = .pinning purpose content slot.version) ∨
    (∃ result, copied slot errand = .leaving result) ∨
    (∃ unit observed attempt,
      copied slot errand = .comparing unit observed attempt slot.version) ∨
    (∃ new, copied slot errand = .acquiringNew new) ∨
      ∃ new, copied slot errand = .storing new := by
  cases errand <;> simp only [copied] <;> (repeat' split) <;> simp_all

theorem copied_pinnedContent? (slot : Slot) (errand : Errand) :
    (copied slot errand).pinnedContent? = none := by
  rcases copied_cases slot errand with ⟨_, _, -, hcopied⟩ | ⟨_, hcopied⟩ | ⟨_, _, _, hcopied⟩ |
    ⟨_, hcopied⟩ | ⟨_, hcopied⟩ <;> rw [hcopied] <;> rfl

theorem copied_displaced? (slot : Slot) (errand : Errand) :
    (copied slot errand).displaced? = none := by
  rcases copied_cases slot errand with ⟨_, _, -, hcopied⟩ | ⟨_, hcopied⟩ | ⟨_, _, _, hcopied⟩ |
    ⟨_, hcopied⟩ | ⟨_, hcopied⟩ <;> rw [hcopied] <;> rfl

/-! ## Dates -/

/-- How the versions that a call refers to stand to the present content and version. -/
def Dated (register : Register) : Phase → Prop
  | .pinning _ content version => register = { content := some content, version }
  | .parting _ content version | .acquiring _ content version | .unpinning _ content version =>
      register.Current content version
  | .departing _ version | .draining _ version _ => version < register.version
  | _ => True

theorem dated_of_idle (hidle : phase.Idle) (register : Register) : phase.Dated register := by
  obtain ⟨hlock, hpinned, hdisplaced⟩ := hidle
  cases phase with
  | pinning | departing => cases hlock
  | parting | acquiring | unpinning => cases hpinned
  | draining => cases hdisplaced
  | _ => trivial

theorem Dated.displaced (hdated : phase.Dated register) {content : ObjectId} {version : ℕ}
    (hdisplaced : phase.displaced? = some (content, version)) : version < register.version := by
  cases phase with
  | departing old _ =>
    cases old with
    | none => cases hdisplaced
    | some old =>
      obtain ⟨-, rfl⟩ := Prod.mk.inj (Option.some.inj hdisplaced)
      exact hdated
  | draining =>
    obtain ⟨-, rfl⟩ := Prod.mk.inj (Option.some.inj hdisplaced)
    exact hdated
  | _ => cases hdisplaced

/-- What others store makes no version later than it was. -/
theorem Dated.after (hdated : phase.Dated register) (hlock : phase.holdsLock = false)
    (new : Option ObjectId) : phase.Dated (register.after (some new)) := by
  cases phase with
  | acquiring | unpinning => exact Register.Current.after hdated (some new)
  | draining => exact Nat.lt_succ_of_lt hdated
  | pinning | parting | departing => cases hlock
  | _ => trivial

theorem dated_copied (slot : Slot) (errand : Errand) :
    (copied slot errand).Dated slot.register := by
  rcases copied_cases slot errand with ⟨purpose, content, hcontent, hcopied⟩ | ⟨_, hcopied⟩ |
    ⟨_, _, _, hcopied⟩ | ⟨_, hcopied⟩ | ⟨_, hcopied⟩ <;> rw [hcopied]
  · rw [Dated, Slot.register, hcontent]
  all_goals trivial

theorem Dated.step (hdated : phase.Dated slot.register)
    (hstep : phase.step slot = some (next, later, effect)) : later.Dated next.register := by
  cases move_of_step hstep with
  | copy errand => exact dated_copied slot errand
  | pin purpose content version =>
    change slot.register = _ at hdated
    change slot.register.Current content version
    rw [hdated]
    exact ⟨le_rfl, fun _ => rfl⟩
  | part | acquire | displace | poll => exact hdated
  | unpin purpose => cases purpose <;> trivial
  | store => exact Nat.lt_succ_self slot.version
  | _ => trivial

/-! ## Pinned and displaced contents -/

/-- The content that a call is about to pin or has pinned, with its version. -/
def reading? : Phase → Option (ObjectId × ℕ)
  | .pinning _ content version => some (content, version)
  | phase => phase.pinnedContent?

/-- The version of the content that a call displaced and still keeps. -/
def displacedAt? (phase : Phase) : Option ℕ :=
  phase.displaced?.map Prod.snd

theorem pinsLike_of_pinned {version : ℕ} (hpinned : phase.pinned? = some version) :
    phase.pinsLike version = true := by
  rw [pinsLike, hpinned, Option.any_some, beq_self_eq_true]

/-- A content is pinned with the lock held, and while it is pinned it stays the same. -/
theorem pinned_of_step {content : ObjectId} {version : ℕ}
    (hstep : phase.step slot = some (next, later, effect))
    (hlater : later.pinnedContent? = some (content, version)) :
    phase.pinnedContent? = some (content, version) ∨
      ∃ purpose, phase = .pinning purpose content version := by
  cases move_of_step hstep with
  | pin purpose =>
    obtain ⟨rfl, rfl⟩ := Prod.mk.inj (Option.some.inj hlater)
    exact .inr ⟨purpose, rfl⟩
  | part | acquire => exact .inl hlater
  | copy errand =>
    rw [copied_pinnedContent?] at hlater
    cases hlater
  | unpin purpose => cases purpose <;> cases hlater
  | _ => cases hlater

/-- A content is displaced by the step that stores another one, and kept until no pin is left. -/
theorem displaced_of_step {content : ObjectId} {version : ℕ}
    (hstep : phase.step slot = some (next, later, effect))
    (hlater : later.displaced? = some (content, version)) :
    phase.displaced? = some (content, version) ∨
      (∃ new, phase = .storing new) ∧ slot.content = some content ∧ slot.version = version := by
  cases move_of_step hstep with
  | store new =>
    right
    cases hcontent : slot.content with
    | none =>
      rw [hcontent] at hlater
      cases hlater
    | some old =>
      rw [hcontent] at hlater
      obtain ⟨rfl, rfl⟩ := Prod.mk.inj (Option.some.inj hlater)
      exact ⟨⟨new, rfl⟩, rfl, rfl⟩
  | displace | poll => exact .inl hlater
  | copy errand =>
    rw [copied_displaced?] at hlater
    cases hlater
  | unpin purpose => cases purpose <;> cases hlater
  | _ => cases hlater

theorem exists_pinnedContent {version : ℕ} (hlike : phase.pinsLike version = true) :
    ∃ content pinned, phase.pinnedContent? = some (content, pinned) ∧
      pinned % 2 = version % 2 := by
  cases phase with
  | parting purpose content pinned | acquiring purpose content pinned
  | unpinning purpose content pinned => exact ⟨content, pinned, rfl, beq_iff_eq.mp hlike⟩
  | _ => cases hlike

/-- A pin is taken at the present version, so that the counter of the version before it is left
alone. -/
theorem Dated.pinsLike_of_step (hdated : phase.Dated slot.register) {version : ℕ}
    (hversion : slot.version = version + 1)
    (hstep : phase.step slot = some (next, later, effect))
    (hlater : later.pinsLike version = true) : phase.pinsLike version = true := by
  obtain ⟨content, pinned, hpinned, hparity⟩ := exists_pinnedContent hlater
  rcases pinned_of_step hstep hpinned with hbefore | ⟨purpose, rfl⟩
  · cases phase with
    | parting | acquiring | unpinning =>
      obtain ⟨-, rfl⟩ := Prod.mk.inj (Option.some.inj hbefore)
      exact beq_iff_eq.mpr hparity
    | _ => cases hbefore
  · have hpresent : slot.version = pinned := congrArg Register.version hdated
    omega

/-! ## Steps outside of the lock -/

/-- A call that does not hold the lock neither reads nor writes content and version. -/
theorem step_unlocked (hlock : phase.holdsLock = false) (slot : Slot) (content : Option ObjectId)
    (version : ℕ) :
    phase.step { slot with content, version } =
      (phase.step slot).map fun (next, later, effect) =>
        ({ next with content, version }, later, effect) := by
  cases phase with
  | locking errand =>
    rw [step, step]
    split <;> rfl
  | draining old displaced rounds =>
    rw [step, step]
    split
    · rfl
    · split <;> rfl
  | acquiring | unpinning | noting | reporting | discarding | done => rfl
  | _ => cases hlock

end Phase

namespace Stage

variable {kind : CellKind} {guard : Guard} {action : Action} {facts : ObjectId → Facts}
  {shape : Text.Layout → ObjectId → Text.Shape} {slot next : Slot} {stage later : Stage}
  {effect : Option Effect} {register : Register}

theorem eq_calling {phase : Phase} (hphase : stage.phase = phase)
    (hdone : ∀ result, phase ≠ .done result) : stage = .calling phase := by
  cases stage with
  | calling found => exact congrArg calling hphase
  | _ => exact absurd hphase.symm (hdone {})

theorem dated_step (hdated : stage.phase.Dated slot.register)
    (hstep : stage.step kind guard action facts shape slot = some (next, later, effect)) :
    later.phase.Dated next.register := by
  rcases step_phase hstep with hphase | ⟨rfl, -, hafter⟩
  · exact hdated.step hphase
  · exact Phase.dated_of_idle hafter next.register

/-- A call on a cell that does not hold the lock neither reads nor writes content and version. -/
theorem step_unlocked (hlock : stage.phase.holdsLock = false) (slot : Slot)
    (content : Option ObjectId) (version : ℕ) :
    stage.step kind guard action facts shape { slot with content, version } =
      (stage.step kind guard action facts shape slot).map fun (next, later, effect) =>
        ({ next with content, version }, later, effect) := by
  cases stage with
  | calling phase =>
    by_cases hdone : ∃ result, phase = .done result
    · obtain ⟨result, rfl⟩ := hdone
      rfl
    · have hgoes : ∀ result, phase ≠ .done result := fun result heq => hdone ⟨result, heq⟩
      rw [step_calling_eq hgoes, step_calling_eq hgoes, phase.step_unlocked hlock, Option.map_map,
        Option.map_map]
      rfl
  | asking new errand =>
    rw [step, step]
    split <;> rfl
  | vetting unit =>
    rw [step, step]
    split <;> rfl
  | writing unit version => cases action <;> rfl
  | rejecting | refusing | releasing | finished => rfl

end Stage

end SharedCell
