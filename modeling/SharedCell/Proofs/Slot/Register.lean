import Mathlib
import SharedCell.Proofs.Slot.Pins

/-!
# Registers

What a slot is to its callers: a content and the number of its replacements.  A call on a slot
takes effect at one of its steps.  Until then it waits for a register to act on, and from then on
what it yields is settled, whatever other calls do.  A read takes effect when it finds that the
version is still the one of its snapshot, an exchange when it stores, and every other call when it
copies content and version under the lock.
-/

namespace SharedCell

/-- The content of a slot and how often it was replaced. -/
structure Register where
  content : Option ObjectId
  version : ℕ
  deriving DecidableEq

namespace Register

/-- The register after what a call stored, if it stored anything. -/
def after (register : Register) : Option (Option ObjectId) → Register
  | some new => { content := new, version := register.version + 1 }
  | none => register

/-- An object that was the content at some version is the content as long as the version is the
same. -/
def Current (register : Register) (content : ObjectId) (version : ℕ) : Prop :=
  version ≤ register.version ∧ (version = register.version → register.content = some content)

theorem Current.after {register : Register} {content : ObjectId} {version : ℕ}
    (hcurrent : register.Current content version) (stored : Option (Option ObjectId)) :
    (register.after stored).Current content version := by
  cases stored with
  | none => exact hcurrent
  | some new =>
    refine ⟨Nat.le_succ_of_le hcurrent.1, fun hversion => ?_⟩
    have hle := hcurrent.1
    simp only [Register.after] at hversion
    omega

end Register

def Slot.register (slot : Slot) : Register where
  content := slot.content
  version := slot.version

/-- What a call that takes effect on a register yields, and what it stores. -/
def Errand.settle (register : Register) : Errand → Yield × Option (Option ObjectId)
  | .snapshot => ({ unit := register.content, version := register.version }, none)
  | .read _ | .recheck .. => ({ unit := register.content }, none)
  | .version => ({ version := register.version }, none)
  | .exchange expected new observe =>
      if expected.all (· == register.content) then
        ({ unit := register.content, replaced := true }, some new)
      else ({ unit := if observe then register.content else none }, none)

namespace Errand

variable {register : Register} {expected new : Option ObjectId} {observe : Bool}

theorem settle_same (hsame : register.content = expected) :
    (exchange (some expected) new observe).settle register =
      ({ unit := register.content, replaced := true }, some new) := by
  simp [settle, hsame]

theorem settle_other (hother : register.content ≠ expected) :
    (exchange (some expected) new observe).settle register =
      ({ unit := if observe then register.content else none }, none) := by
  simp [settle, Ne.symm hother]

end Errand

namespace Phase

/-- What a call that has taken effect is going to yield. -/
def yield? : Phase → Option Yield
  | .pinning .snapshot content version | .parting .snapshot content version
  | .acquiring .snapshot content version | .unpinning .snapshot content version =>
      some { unit := some content, version }
  | .pinning .mismatch content _ | .parting .mismatch content _
  | .acquiring .mismatch content _ | .unpinning .mismatch content _ =>
      some { unit := some content }
  | .departing old _ => some { unit := old, replaced := true }
  | .draining old _ _ | .noting old _ _ => some { unit := some old, replaced := true }
  | .leaving result | .done result => some result
  | .comparing unit observed _ current =>
      if current = observed then some { unit := some unit } else none
  | _ => none

/-- Whether the next step replaces the content. -/
def stores : Phase → Bool
  | .storing _ => true
  | _ => false

/-- The phase of a call that takes effect when content and version are copied, and has not copied
them. -/
def AwaitsCopy (errand : Errand) : Phase → Prop
  | .locking other | .copying other => other = errand
  | _ => False

/-- The phase of a read that has yet to take effect.  The content that it has copied is the content
as long as the version is the one that was copied with it. -/
def AwaitsRead (register : Register) : Phase → Prop
  | .locking (.read _) | .copying (.read _) | .reporting .. | .discarding .. => True
  | .locking (.recheck unit observed _) | .copying (.recheck unit observed _) =>
      register.Current unit observed
  | .pinning (.read _) content version | .parting (.read _) content version
  | .acquiring (.read _) content version | .unpinning (.read _) content version =>
      register.Current content version
  | .comparing _ observed _ current => current ≠ observed
  | _ => False

/-- The phase of an exchange that has yet to take effect.  One that is about to store has found the
content that it expects. -/
def AwaitsExchange (register : Register) (expected : Option (Option ObjectId))
    (new : Option ObjectId) (observe : Bool) : Phase → Prop
  | .locking errand | .copying errand => errand = .exchange expected new observe
  | .acquiringNew obj => new = some obj ∧ expected.all (· == register.content)
  | .storing stored => new = stored ∧ expected.all (· == register.content)
  | _ => False

/-- The phase of a call that has yet to take effect. -/
def Awaits (register : Register) : Errand → Phase → Prop
  | .read _, phase => phase.AwaitsRead register
  | .recheck .., _ => False
  | .exchange expected new observe, phase => phase.AwaitsExchange register expected new observe
  | .snapshot, phase => phase.AwaitsCopy .snapshot
  | .version, phase => phase.AwaitsCopy .version

variable {slot next : Slot} {phase later : Phase} {effect : Option Effect} {errand : Errand}

theorem not_awaits_done {register : Register} {result : Yield} :
    ¬ (done result).Awaits register errand := by
  cases errand <;> exact id

/-- Only the step that stores changes the register. -/
theorem register_step (hstep : phase.step slot = some (next, later, effect))
    (hstores : phase.stores = false) : next.register = slot.register := by
  cases move_of_step hstep with
  | store => cases hstores
  | _ => rfl

/-- Every replacement counts one version, and nothing else does. -/
theorem version_step (hstep : phase.step slot = some (next, later, effect)) :
    next.version = slot.version + phase.stores.toNat := by
  cases move_of_step hstep <;> rfl

/-- What a call yields is settled once it has taken effect. -/
theorem yield?_step {result : Yield} (hyield : phase.yield? = some result)
    (hstep : phase.step slot = some (next, later, effect)) :
    later.yield? = some result ∧ next.register = slot.register := by
  cases move_of_step hstep with
  | pin purpose | part purpose | acquire purpose | unpin purpose =>
    cases purpose with
    | mismatch | snapshot => exact ⟨hyield, rfl⟩
    | read => cases hyield
  | depart | displace | poll | drain | emerge | note | leave => exact ⟨hyield, rfl⟩
  | confirm unit version =>
    rw [yield?, if_pos rfl] at hyield
    exact ⟨hyield, rfl⟩
  | outdate unit attempt hother =>
    rw [yield?, if_neg hother] at hyield
    cases hyield
  | _ => cases hyield

/-- The step at which the lock is held and content and version are read: all calls take effect
here, except for reads that have found a content and exchanges that found what they expect. -/
theorem Awaits.copied {read : Errand} (hawaits : (copying read).Awaits slot.register errand) :
    (copied slot read).Awaits slot.register errand ∨
      ((copied slot read).yield? = some (errand.settle slot.register).1 ∧
        (errand.settle slot.register).2 = none) := by
  cases errand with
  | snapshot =>
    cases read <;> simp only [Awaits, AwaitsCopy, reduceCtorEq] at hawaits
    right
    cases hcontent : slot.content <;>
      simp [Phase.copied, hcontent, yield?, Errand.settle, Slot.register]
  | read attempt =>
    cases read <;> simp only [Awaits, AwaitsRead] at hawaits
    case read again =>
      cases hcontent : slot.content with
      | none => simp [Phase.copied, hcontent, yield?, Errand.settle, Slot.register]
      | some content =>
        simp [Phase.copied, hcontent, Awaits, AwaitsRead, Register.Current, Slot.register]
    case recheck unit observed again =>
      by_cases hversion : slot.version = observed
      · right
        have hcontent := hawaits.2 hversion.symm
        simp_all [Phase.copied, yield?, Errand.settle, Slot.register]
      · left
        simpa [Phase.copied, Awaits, AwaitsRead] using hversion
  | version =>
    cases read <;> simp only [Awaits, AwaitsCopy, reduceCtorEq] at hawaits
    right
    simp [Phase.copied, yield?, Errand.settle, Slot.register]
  | exchange expected new observe =>
    simp only [Awaits, AwaitsExchange] at hawaits
    subst hawaits
    by_cases hexpected : expected.all (· == slot.content) = true
    · left
      cases new <;> simp_all [Phase.copied, Awaits, AwaitsExchange, Slot.register]
    · right
      cases hcontent : slot.content <;> cases observe <;>
        simp_all [Phase.copied, yield?, Errand.settle, Slot.register]
  | recheck unit observed again => cases read <;> simp only [Awaits] at hawaits

theorem Awaits.step (hawaits : phase.Awaits slot.register errand)
    (hstep : phase.step slot = some (next, later, effect)) :
    (later.Awaits next.register errand ∧ next.register = slot.register) ∨
      (later.yield? = some (errand.settle slot.register).1 ∧
        next.register = slot.register.after (errand.settle slot.register).2) := by
  cases move_of_step hstep with
  | lock read =>
    left
    cases errand <;> cases read <;>
      simp_all [Awaits, AwaitsCopy, AwaitsRead, AwaitsExchange, Slot.register, Slot.lock]
  | copy read =>
    rcases hawaits.copied with hagain | ⟨hyield, hstored⟩
    · exact .inl ⟨hagain, rfl⟩
    · exact .inr ⟨hyield, by rw [hstored]; rfl⟩
  | pin purpose | part purpose | acquire purpose | unpin purpose =>
    left
    cases errand <;> cases purpose <;>
      simp only [Awaits, AwaitsCopy, AwaitsRead, AwaitsExchange] at hawaits
    exact ⟨hawaits, rfl⟩
  | acquireNew obj =>
    cases errand <;> simp only [Awaits, AwaitsCopy, AwaitsRead, AwaitsExchange] at hawaits
    exact .inl ⟨hawaits, rfl⟩
  | store stored =>
    cases errand <;> simp only [Awaits, AwaitsCopy, AwaitsRead, AwaitsExchange] at hawaits
    obtain ⟨rfl, hexpected⟩ := hawaits
    right
    rw [Errand.settle, if_pos hexpected]
    exact ⟨rfl, rfl⟩
  | confirm =>
    cases errand <;> simp only [Awaits, AwaitsCopy, AwaitsRead, AwaitsExchange] at hawaits
    exact absurd rfl hawaits
  | outdate | report | discard =>
    cases errand <;> simp only [Awaits, AwaitsCopy, AwaitsRead, AwaitsExchange] at hawaits
    exact .inl ⟨trivial, rfl⟩
  | depart | displace | poll | drain | emerge | note | leave =>
    cases errand <;> simp only [Awaits, AwaitsCopy, AwaitsRead, AwaitsExchange] at hawaits

/-- A call that does not hold the lock goes on waiting, whatever another call stores. -/
theorem Awaits.after {register : Register} (hawaits : phase.Awaits register errand)
    (hlock : phase.holdsLock = false) (stored : Option (Option ObjectId)) :
    phase.Awaits (register.after stored) errand := by
  cases phase with
  | locking read =>
    cases errand with
    | read attempt =>
      cases read <;> simp only [Awaits, AwaitsRead] at hawaits ⊢
      exact hawaits.after stored
    | _ => cases read <;> exact hawaits
  | acquiring purpose content version | unpinning purpose content version =>
    cases errand <;> cases purpose <;>
      simp only [Awaits, AwaitsCopy, AwaitsRead, AwaitsExchange] at hawaits ⊢
    exact hawaits.after stored
  | reporting | discarding | draining | noting | done => cases errand <;> exact hawaits
  | _ => cases hlock

end Phase

end SharedCell
