import Mathlib
import SharedCell.Proofs.Cell.Stage
import SharedCell.Proofs.Slot.Register

/-!
# Answers

What the actions on a cell answer if each of them is one step on a register: the outcome, and what
the action stores.  A call on a cell that took effect on a register ends with one of the answers
that its action has there.
-/

namespace SharedCell

open Text

/-- `Answers kind guard action register outcome stored` says that an action that finds a register
may end with an outcome, having stored something or not.  A comparison succeeds exactly if the
content is what is expected; the guard may refuse what an atomic cell is asked to store. -/
inductive Answers (kind : CellKind) (guard : Guard) :
    Action → Register → Outcome → Option (Option ObjectId) → Prop where
  | get (register) : Answers kind guard .get register (.unit register.content) none
  | copy (register) : Answers kind guard .copy register (.unit register.content) none
  | snapshot (register) :
      Answers kind guard .snapshot register (.snapshot register.content register.version) none
  | version (register) : Answers kind guard .version register (.version register.version) none
  | showText (register layout) (shown : ObjectId → Shape) :
      Answers kind guard (.showText layout) register
        (.text ((cellShape kind layout (register.content.map shown) register.version).render
          layout.pretty)) none
  | set (register new) : Answers kind guard (.set new) register .done (some new)
  | replace (register new) :
      Answers kind guard (.replace new) register (.unit register.content) (some new)
  | assign (register new) :
      Answers kind guard (.assign new) register (.unit register.content) (some new)
  | take (register) : Answers kind guard .take register (.unit register.content) (some none)
  | swapped {register expected} (new) (hsame : register.content = expected) :
      Answers kind guard (.compareAndSwap expected new) register (.unit register.content)
        (some new)
  | kept {register expected} (new) (hother : register.content ≠ expected) :
      Answers kind guard (.compareAndSwap expected new) register (.unit register.content) none
  | setSame {register expected} (new) (hsame : register.content = expected) :
      Answers kind guard (.compareAndSet expected new) register (.flag true) (some new)
  | keptOther {register expected} (new) (hother : register.content ≠ expected) :
      Answers kind guard (.compareAndSet expected new) register (.flag false) none
  | swapSame {register expected} (new) (hsame : register.content = expected) :
      Answers kind guard (.swap expected new) register (.swapped true register.content) (some new)
  | swapOther {register expected} (new) (hother : register.content ≠ expected) :
      Answers kind guard (.swap expected new) register (.swapped false register.content) none
  | swapIfSame {register expected} (new) (hsame : register.content = expected) :
      Answers kind guard (.swapIf expected new) register (.swapped true register.content)
        (some new)
  | swapIfOther {register expected} (new) (hother : register.content ≠ expected) :
      Answers kind guard (.swapIf expected new) register (.swapped false none) none
  | vetted (register) : Answers kind guard .freeze register .done none
  | refused {register obj facts} (hcontent : register.content = some obj)
      (hrefused : guard.accepts facts = false) :
      Answers kind guard .freeze register (.rejected obj) none
  | rejected {action obj facts} (register) (hkind : kind = .atomic)
      (hnew : action.new? = some obj) (hrefused : guard.accepts facts = false) :
      Answers kind guard action register (.rejected obj) none

namespace Stage

/-- The stage of a call that has yet to take effect. -/
def Awaits (kind : CellKind) (action : Action) (register : Register) : Stage → Prop
  | .asking new errand =>
      kind = .atomic ∧ action.new? = some new ∧ errand = action.errand kind
  | .calling phase => phase.Awaits register (action.errand kind)
  | _ => False

/-- The stage of a call that took effect on a register: whatever it ends with is an answer. -/
def Settled (kind : CellKind) (guard : Guard) (action : Action) (seen : Register)
    (stored : Option (Option ObjectId)) : Stage → Prop
  | .asking .. => False
  | .rejecting new | .refusing new => Answers kind guard action seen (.rejected new) stored
  | .calling phase =>
      phase.yield? = some ((action.errand kind).settle seen).1 ∧
        stored = ((action.errand kind).settle seen).2
  | .writing unit version =>
      stored = none ∧ seen.content = some unit ∧ (kind = .freezable ∨ version = seen.version) ∧
        ∃ layout, action = .showText layout
  | .vetting unit => action = .freeze ∧ stored = none ∧ seen.content = some unit
  | .releasing _ outcome | .finished outcome => Answers kind guard action seen outcome stored

variable {kind : CellKind} {guard : Guard} {action : Action} {facts : ObjectId → Facts}
  {shape : Layout → ObjectId → Shape} {slot next : Slot} {stage later : Stage}
  {effect : Option Effect}

/-- A call waits to take effect from its first step on. -/
theorem awaits_locking (kind : CellKind) (action : Action) (register : Register) :
    (Phase.locking (action.errand kind)).Awaits register (action.errand kind) := by
  cases action <;> simp only [Action.errand] <;> try split
  all_goals simp [Phase.Awaits, Phase.AwaitsCopy, Phase.AwaitsRead, Phase.AwaitsExchange]

theorem awaits_opening (kind : CellKind) (action : Action) (register : Register) :
    (action.opening kind).Awaits kind action register := by
  unfold Action.opening
  split
  · rename_i new hnew
    exact ⟨rfl, hnew, rfl⟩
  · exact awaits_locking _ action register

theorem settled_giveBack {seen : Register} {stored : Option (Option ObjectId)} {outcome : Outcome}
    (unit : Option ObjectId) (hanswers : Answers kind guard action seen outcome stored) :
    (giveBack unit outcome).Settled kind guard action seen stored := by
  cases unit <;> exact hanswers

/-- What a call makes of what the slot yields. -/
theorem settled_received (kind : CellKind) (guard : Guard) (action : Action) (seen : Register) :
    (received kind ((action.errand kind).settle seen).1 action).Settled kind guard action seen
      ((action.errand kind).settle seen).2 := by
  cases action with
  | get => exact .get seen
  | copy => exact .copy seen
  | snapshot => exact .snapshot seen
  | version => exact .version seen
  | set new => exact settled_giveBack _ (.set seen new)
  | replace new => exact .replace seen new
  | assign new => exact .assign seen new
  | take => exact .take seen
  | compareAndSwap expected new =>
    by_cases hsame : seen.content = expected
    · rw [Action.errand, Errand.settle_same hsame]
      exact .swapped new hsame
    · rw [Action.errand, Errand.settle_other hsame]
      exact .kept new hsame
  | compareAndSet expected new =>
    by_cases hsame : seen.content = expected
    · rw [Action.errand, Errand.settle_same hsame]
      exact settled_giveBack _ (.setSame new hsame)
    · rw [Action.errand, Errand.settle_other hsame]
      exact .keptOther new hsame
  | swap expected new =>
    by_cases hsame : seen.content = expected
    · rw [Action.errand, Errand.settle_same hsame]
      exact .swapSame new hsame
    · rw [Action.errand, Errand.settle_other hsame]
      exact .swapOther new hsame
  | swapIf expected new =>
    by_cases hsame : seen.content = expected
    · rw [Action.errand, Errand.settle_same hsame]
      exact .swapIfSame new hsame
    · rw [Action.errand, Errand.settle_other hsame]
      exact .swapIfOther new hsame
  | freeze =>
    cases hcontent : seen.content with
    | none => simpa [Action.errand, Errand.settle, received, hcontent, Settled] using .vetted seen
    | some unit => simp [Action.errand, Errand.settle, received, hcontent, Settled]
  | showText layout =>
    have hanswer (shown) : Answers kind guard (.showText layout) seen _ none :=
      .showText seen layout shown
    by_cases hkind : kind = .freezable
    · subst hkind
      cases hcontent : seen.content with
      | none =>
        simpa [Action.errand, Errand.settle, received, hcontent, Settled, cellShape]
          using hanswer fun _ => .leaf ""
      | some unit => simp [Action.errand, Errand.settle, received, hcontent, Settled]
    · cases hcontent : seen.content with
      | none =>
        simpa [Action.errand, hkind, Errand.settle, received, hcontent, Settled]
          using hanswer fun _ => .leaf ""
      | some unit => simp [Action.errand, hkind, Errand.settle, received, hcontent, Settled]

theorem Settled.step {seen : Register} {stored : Option (Option ObjectId)}
    (hsettled : stage.Settled kind guard action seen stored)
    (hstep : stage.step kind guard action facts shape slot = some (next, later, effect)) :
    later.Settled kind guard action seen stored ∧ next.register = slot.register := by
  cases move_of_step hstep with
  | accept | stop => exact hsettled.elim
  | receive result =>
    obtain ⟨hyield, rfl⟩ := hsettled
    obtain rfl := Option.some.inj hyield
    exact ⟨settled_received kind guard action seen, rfl⟩
  | call hphase =>
    obtain ⟨hyield, rfl⟩ := hsettled
    obtain ⟨hafter, hregister⟩ := Phase.yield?_step hyield hphase
    exact ⟨⟨hafter, rfl⟩, hregister⟩
  | write unit version haction =>
    obtain ⟨rfl, hcontent, hversion, layout, rfl⟩ := hsettled
    obtain rfl := Action.showText.inj haction
    refine ⟨?_, rfl⟩
    have hanswer : Answers kind guard (.showText layout) seen _ none :=
      .showText seen layout (shape layout)
    rcases hversion with rfl | rfl
    · simpa [Settled, cellShape, hcontent] using hanswer
    · simpa [Settled, hcontent] using hanswer
  | skip unit version hother =>
    obtain ⟨-, -, -, layout, haction⟩ := hsettled
    exact absurd haction (hother layout)
  | approve =>
    obtain ⟨rfl, rfl, hcontent⟩ := hsettled
    exact ⟨.vetted seen, rfl⟩
  | object hrefused =>
    obtain ⟨rfl, rfl, hcontent⟩ := hsettled
    exact ⟨.refused hcontent hrefused, rfl⟩
  | reject | refuse | release => exact ⟨hsettled, rfl⟩

theorem Awaits.step (hawaits : stage.Awaits kind action slot.register)
    (hstep : stage.step kind guard action facts shape slot = some (next, later, effect)) :
    (later.Awaits kind action next.register ∧ next.register = slot.register) ∨
      ∃ stored, later.Settled kind guard action slot.register stored ∧
        next.register = slot.register.after stored := by
  cases move_of_step hstep with
  | accept errand =>
    obtain ⟨rfl, hnew, rfl⟩ := hawaits
    exact .inl ⟨awaits_locking .atomic action slot.register, rfl⟩
  | stop errand hrefused =>
    obtain ⟨rfl, hnew, rfl⟩ := hawaits
    exact .inr ⟨none, .rejected _ rfl hnew hrefused, rfl⟩
  | receive => exact (Phase.not_awaits_done hawaits).elim
  | call hphase =>
    rcases Phase.Awaits.step hawaits hphase with hagain | ⟨hyield, hregister⟩
    · exact .inl hagain
    · exact .inr ⟨_, ⟨hyield, rfl⟩, hregister⟩
  | _ => exact hawaits.elim

/-- A call that does not hold the lock goes on waiting, whatever another call stores. -/
theorem Awaits.after {register : Register} (hawaits : stage.Awaits kind action register)
    (hlock : stage.phase.holdsLock = false) (stored : Option (Option ObjectId)) :
    stage.Awaits kind action (register.after stored) := by
  cases stage with
  | calling phase => exact Phase.Awaits.after hawaits hlock stored
  | _ => exact hawaits

theorem version_step (hstep : stage.step kind guard action facts shape slot =
      some (next, later, effect)) :
    next.version = slot.version + stage.phase.stores.toNat := by
  rcases step_phase hstep with hphase | ⟨rfl, ⟨hlock, _, _⟩, _⟩
  · exact Phase.version_step hphase
  · cases hphase : stage.phase <;> simp_all [Phase.stores, Phase.holdsLock]

end Stage

end SharedCell
