import Mathlib
import SharedCell.Proofs.Cell.Answers
import SharedCell.Proofs.Solo.AtomicCalls

/-!
# Exchanges beside other calls

A call that is to replace the content of its slot looks at the content once, under the lock, and all
that it does follows from what it finds there: whether it stores, which units it acquires, and what
it yields.  Nothing is read again once the lock is given up, so others cannot make a difference
afterwards.  This is an invariant of the steps of the call, with a record of the stages from which it
has made them.
-/

namespace SharedCell

open Text

/-! ## Effects -/

/-- What a call reports that had to wait for the readers of what it has displaced.  One that has
stored nothing does not wait. -/
def Effect.Waits (stored : Bool) (waits : List Effect) : Prop :=
  waits = [] ∨ stored = true ∧ ∃ version rounds, waits = [.wait version rounds]

namespace Phase

/-- What a step from a phase does besides its access to the slot. -/
def effect? : Phase → Option Effect
  | .acquiring _ content _ => some (.acquire content)
  | .acquiringNew new => some (.acquire new)
  | .noting _ version rounds => some (.wait version rounds)
  | .reporting _ observed attempt current => some (.retry observed current attempt)
  | .discarding unit _ => some (.release unit)
  | _ => none

/-- The units that a call is going to acquire on what it has found. -/
def dues : Phase → List Effect
  | .pinning _ content _ | .parting _ content _ | .acquiring _ content _ => [.acquire content]
  | _ => []

/-- What a replacement is about to report. -/
def notes : Phase → List Effect
  | .noting _ version rounds => [.wait version rounds]
  | _ => []

variable {slot next : Slot} {phase later : Phase} {effect : Option Effect}

theorem effect_step (hstep : phase.step slot = some (next, later, effect)) :
    effect = phase.effect? := by
  cases move_of_step hstep <;> rfl

/-- A call that has taken effect acquires what it is due and reports its wait, and does nothing
else. -/
theorem dues_step {result : Yield} (hyield : phase.yield? = some result)
    (hstep : phase.step slot = some (next, later, effect)) :
    effect.toList ++ later.dues = phase.dues ++ phase.notes := by
  cases move_of_step hstep with
  | unpin purpose =>
    cases purpose with
    | read => cases hyield
    | _ => rfl
  | pin | part | acquire | depart | displace | poll | drain | emerge | note | leave | confirm => rfl
  | outdate unit attempt hother =>
    rw [yield?, if_neg hother] at hyield
    cases hyield
  | _ => cases hyield

/-- After the report a call is done. -/
theorem notes_step (hstep : phase.step slot = some (next, later, effect)) :
    phase.notes = [] ∨ ∃ result, later = .done result := by
  cases move_of_step hstep with
  | note => exact .inr ⟨_, rfl⟩
  | _ => exact .inl rfl

end Phase

namespace Stage

/-- What a step from a stage does besides its access to the slot. -/
def effect? : Stage → Option Effect
  | .asking obj _ | .vetting obj => some (.ask obj)
  | .rejecting obj | .refusing obj => some (.reject obj)
  | .calling phase => phase.effect?
  | .releasing unit _ => some (.release unit)
  | .writing .. | .finished _ => none

variable {kind : CellKind} {guard : Guard} {action : Action} {facts : ObjectId → Facts}
  {shape : Layout → ObjectId → Shape} {slot next : Slot} {stage later : Stage}
  {effect : Option Effect}

theorem effect_step (hstep : stage.step kind guard action facts shape slot =
    some (next, later, effect)) : effect = stage.effect? := by
  cases move_of_step hstep with
  | call hphase => exact Phase.effect_step hphase
  | _ => rfl

end Stage

/-- What a call has done in steps from these stages. -/
def effectsOf (record : List Stage) : List Effect :=
  record.filterMap Stage.effect?

/-- Whether one of the steps from these stages has replaced the content. -/
def storedIn (record : List Stage) : Bool :=
  record.any (·.phase.stores)

theorem effectsOf_append (first second : List Stage) :
    effectsOf (first ++ second) = effectsOf first ++ effectsOf second :=
  List.filterMap_append

theorem storedIn_append (first second : List Stage) :
    storedIn (first ++ second) = (storedIn first || storedIn second) :=
  List.any_append

theorem effectsOf_concat (record : List Stage) (stage : Stage) :
    effectsOf (record ++ [stage]) = effectsOf record ++ stage.effect?.toList := by
  cases heffect : stage.effect? <;> simp [effectsOf, heffect]

theorem storedIn_concat (record : List Stage) (stage : Stage) :
    storedIn (record ++ [stage]) = (storedIn record || stage.phase.stores) := by
  simp [storedIn]

/-! ## Calls on a slot -/

section Slot

variable (expected : Option (Option ObjectId)) (new : Option ObjectId) (observe : Bool)

/-- How far an exchange has come, whether it has stored, and what it has done.  The content that it
has found is that of the register as long as it has the lock. -/
inductive Phase.Exchanges : Register → Bool → List Effect → Phase → Prop where
  | locking (register : Register) :
      Exchanges register false [] (.locking (.exchange expected new observe))
  | copying (register : Register) :
      Exchanges register false [] (.copying (.exchange expected new observe))
  | acquiringNew {register : Register} {obj : ObjectId} (hnew : new = some obj)
      (hfound : expected.all (· == register.content) = true) :
      Exchanges register false [] (.acquiringNew obj)
  | storing {register : Register} (hfound : expected.all (· == register.content) = true) :
      Exchanges register false (new.toList.map .acquire) (.storing new)
  | settled (register : Register) {seen : Register} {effects waits : List Effect} {phase : Phase}
      (hyield : phase.yield? = some ((Errand.exchange expected new observe).settle seen).1)
      (hwaits : Effect.Waits ((Errand.exchange expected new observe).settle seen).2.isSome waits)
      (hlast : waits = [] ∨ ∃ result, phase = .done result)
      (heffects : effects ++ phase.dues =
        ((Errand.exchange expected new observe).acquired seen).map .acquire ++ waits) :
      Exchanges register ((Errand.exchange expected new observe).settle seen).2.isSome effects phase

variable {expected new observe} {slot next : Slot} {phase later : Phase} {effect : Option Effect}
  {register : Register} {stored : Bool} {effects : List Effect}

/-- A call that says that it has replaced the content has stored something. -/
theorem Errand.replaced_settle (seen : Register) :
    ((exchange expected new observe).settle seen).1.replaced =
      ((exchange expected new observe).settle seen).2.isSome := by
  rw [settle]
  split <;> rfl

/-- Only a call that has stored something reports that it had to wait. -/
theorem Phase.waits_notes {seen : Register}
    (hyield : phase.yield? = some ((Errand.exchange expected new observe).settle seen).1) :
    Effect.Waits ((Errand.exchange expected new observe).settle seen).2.isSome phase.notes := by
  cases phase with
  | noting old version rounds =>
    refine .inr ⟨?_, version, rounds, rfl⟩
    rw [← Errand.replaced_settle, ← Option.some.inj hyield]
  | _ => exact .inl rfl

namespace Phase.Exchanges

/-- Content and version are read under the lock. -/
theorem copied (slot : Slot) : Exchanges expected new observe slot.register false []
    (Phase.copied slot (.exchange expected new observe)) := by
  by_cases hfound : expected.all (· == slot.content) = true
  · cases new with
    | some obj =>
      simp only [Phase.copied, if_pos hfound]
      exact .acquiringNew rfl hfound
    | none =>
      simp only [Phase.copied, if_pos hfound]
      exact .storing hfound
  · have hsettle : (Errand.exchange expected new observe).settle slot.register =
        ({ unit := if observe then slot.content else none }, none) := by
      rw [Errand.settle]
      exact if_neg hfound
    have hleft (phase : Phase)
        (hyield : phase.yield? = some { unit := if observe then slot.content else none })
        (hdues : phase.dues = (if observe then slot.content else none).toList.map .acquire) :
        Exchanges expected new observe slot.register false [] phase := by
      have hsettled :=
        @Exchanges.settled expected new observe slot.register slot.register [] [] phase
      simp only [Errand.acquired, hsettle, List.append_nil] at hsettled
      exact hsettled hyield (.inl rfl) (.inl trivial) hdues
    simp only [Phase.copied, if_neg hfound]
    apply hleft <;> cases slot.content <;> cases observe <;> rfl

theorem step (hexchanges : phase.Exchanges expected new observe slot.register stored effects)
    (hstep : phase.step slot = some (next, later, effect)) :
    later.Exchanges expected new observe next.register (stored || phase.stores)
      (effects ++ effect.toList) := by
  cases hexchanges with
  | locking =>
    simp only [Phase.step] at hstep
    split at hstep
    · cases hstep
    · simp only [Option.some.injEq, Prod.mk.injEq] at hstep
      obtain ⟨rfl, rfl, rfl⟩ := hstep
      exact .copying _
  | copying =>
    simp only [Phase.step, Option.some.injEq, Prod.mk.injEq] at hstep
    obtain ⟨rfl, rfl, rfl⟩ := hstep
    exact copied slot
  | acquiringNew hnew hfound =>
    subst hnew
    simp only [Phase.step, Option.some.injEq, Prod.mk.injEq] at hstep
    obtain ⟨rfl, rfl, rfl⟩ := hstep
    exact .storing hfound
  | storing hfound =>
    simp only [Phase.step, Option.some.injEq, Prod.mk.injEq] at hstep
    obtain ⟨rfl, rfl, rfl⟩ := hstep
    have hsettle : (Errand.exchange expected new observe).settle slot.register =
        ({ unit := slot.content, replaced := true }, some new) := by
      rw [Errand.settle]
      exact if_pos hfound
    have hstored : true =
        ((Errand.exchange expected new observe).settle slot.register).2.isSome := by
      rw [hsettle]
      rfl
    rw [Bool.false_or, Phase.stores, hstored]
    refine .settled _ ?_ (.inl rfl) (.inl rfl) ?_
    · rw [hsettle]
      rfl
    · simp [Errand.acquired, hsettle, Phase.dues]
  | @settled _ _ waits _ hyield hwaits hlast heffects =>
    obtain ⟨hlater, -⟩ := Phase.yield?_step hyield hstep
    have hdues := Phase.dues_step hyield hstep
    have hstores : phase.stores = false := by
      cases phase <;> first | rfl | cases hyield
    -- A call that makes a step has not reported its wait yet.
    obtain rfl : waits = [] := by
      rcases hlast with hnone | ⟨result, rfl⟩
      · exact hnone
      · cases hstep
    rw [hstores, Bool.or_false]
    refine .settled next.register hlater (Phase.waits_notes hyield) (Phase.notes_step hstep) ?_
    rw [List.append_assoc, hdues, ← List.append_assoc, heffects, List.append_nil]

/-- A call without the lock has not looked yet, or does not look any more. -/
theorem turn (hexchanges : phase.Exchanges expected new observe register stored effects)
    (hlock : phase.holdsLock = false) (turned : Register) :
    phase.Exchanges expected new observe turned stored effects := by
  cases hexchanges with
  | locking => exact .locking turned
  | settled hyield hwaits hlast heffects => exact .settled turned hyield hwaits hlast heffects
  | copying | acquiringNew | storing => cases hlock

/-- What a call yields in the end follows from what it has found. -/
theorem done {result : Yield}
    (hexchanges : (Phase.done result).Exchanges expected new observe register stored effects) :
    ∃ seen waits, result = ((Errand.exchange expected new observe).settle seen).1 ∧
      stored = ((Errand.exchange expected new observe).settle seen).2.isSome ∧
      Effect.Waits stored waits ∧
      effects = ((Errand.exchange expected new observe).acquired seen).map .acquire ++ waits := by
  cases hexchanges with
  | @settled seen _ waits _ hyield hwaits hlast heffects =>
    simp only [Phase.dues, List.append_nil] at heffects
    exact ⟨seen, waits, Option.some.inj hyield, rfl, hwaits, heffects⟩

end Phase.Exchanges

end Slot

/-! ## Calls on a cell -/

/-- The actions that are to replace the content: with an expectation or without, for what, and
whether a fresh unit is wanted on a content that is left in place. -/
inductive Action.Exchange : Action → Option (Option ObjectId) → Option ObjectId → Bool → Prop where
  | set (new) : Exchange (.set new) none new false
  | replace (new) : Exchange (.replace new) none new false
  | assign (new) : Exchange (.assign new) none new false
  | take : Exchange .take none none false
  | compareAndSwap (expected new) :
      Exchange (.compareAndSwap expected new) (some expected) new true
  | compareAndSet (expected new) :
      Exchange (.compareAndSet expected new) (some expected) new false
  | swap (expected new) : Exchange (.swap expected new) (some expected) new true
  | swapIf (expected new) : Exchange (.swapIf expected new) (some expected) new false

namespace Action

variable {action : Action} {expected : Option (Option ObjectId)} {new : Option ObjectId}
  {observe : Bool}

theorem Exchange.errand (hexchange : action.Exchange expected new observe) (kind : CellKind) :
    action.errand kind = .exchange expected new observe := by
  cases hexchange <;> rfl

theorem Exchange.new? (hexchange : action.Exchange expected new observe) : action.new? = new := by
  cases hexchange <;> rfl

/-- The unit that the caller does not ask for, and what the call ends with. -/
def settled (result : Yield) : Action → Option ObjectId × Outcome
  | .set _ => (result.unit, .done)
  | .compareAndSet _ _ => (result.unit, .flag result.replaced)
  | .swap _ _ | .swapIf _ _ => (none, .swapped result.replaced result.unit)
  | _ => (none, .unit result.unit)

theorem Exchange.received (hexchange : action.Exchange expected new observe) (kind : CellKind)
    (result : Yield) :
    Stage.received kind result action =
      Stage.giveBack (action.settled result).1 (action.settled result).2 := by
  cases hexchange <;> rfl

end Action

section Cell

variable (action : Action) (expected : Option (Option ObjectId)) (new : Option ObjectId)
  (observe : Bool) (asked : List Stage)

/-- What an exchange has done, and what it ends with, once the slot is done with it. -/
structure Stage.Exchanged (seen : Register) (record : List Stage) (waits dues : List Effect)
    (outcome : Outcome) : Prop where
  stored : storedIn record = ((Errand.exchange expected new observe).settle seen).2.isSome
  waited : Effect.Waits (storedIn record) waits
  effects : effectsOf record ++ dues =
    ((Errand.exchange expected new observe).acquired seen).map .acquire ++ waits ++
      (action.settled ((Errand.exchange expected new observe).settle seen).1).1.toList.map .release
  outcome : outcome = (action.settled ((Errand.exchange expected new observe).settle seen).1).2

/-- How far a call has come that begins, if its guard is asked, with the given stages. -/
inductive Stage.Exchanges : Register → List Stage → Stage → Prop where
  | asking (register : Register) {obj : ObjectId} (hnew : new = some obj)
      (hasked : asked = [.asking obj (.exchange expected new observe)]) :
      Exchanges register [] (.asking obj (.exchange expected new observe))
  | rejecting (register : Register) {obj : ObjectId} (hnew : new = some obj)
      (hasked : asked = [.asking obj (.exchange expected new observe)]) :
      Exchanges register asked (.rejecting obj)
  | rejected (register : Register) {obj : ObjectId} (hnew : new = some obj)
      (hasked : asked = [.asking obj (.exchange expected new observe)]) :
      Exchanges register (asked ++ [.rejecting obj]) (.finished (.rejected obj))
  | calling {register : Register} {record : List Stage} {phase : Phase}
      (hphase : phase.Exchanges expected new observe register (storedIn record)
        (effectsOf record)) : Exchanges register (asked ++ record) (.calling phase)
  | releasing (register : Register) {seen : Register} {record : List Stage} {waits : List Effect}
      {unit : ObjectId} {outcome : Outcome}
      (hexchanged :
        Stage.Exchanged action expected new observe seen record waits [.release unit] outcome) :
      Exchanges register (asked ++ record) (.releasing unit outcome)
  | finished (register : Register) {seen : Register} {record : List Stage} {waits : List Effect}
      {outcome : Outcome}
      (hexchanged : Stage.Exchanged action expected new observe seen record waits [] outcome) :
      Exchanges register (asked ++ record) (.finished outcome)

variable {action expected new observe asked}

namespace Stage

/-- The unit is given back that the caller did not ask for. -/
theorem Exchanged.released {seen : Register} {record : List Stage} {waits : List Effect}
    {unit : ObjectId} {outcome : Outcome}
    (hexchanged : Exchanged action expected new observe seen record waits [.release unit] outcome) :
    Exchanged action expected new observe seen (record ++ [.releasing unit outcome]) waits []
      outcome where
  stored := by
    rw [storedIn_concat, hexchanged.stored]
    exact Bool.or_false _
  waited := by
    rw [storedIn_concat]
    exact (Bool.or_false _).symm ▸ hexchanged.waited
  effects := by
    rw [effectsOf_concat, effect?, Option.toList_some, List.append_nil, hexchanged.effects]
  outcome := hexchanged.outcome

/-- Once the slot is done with the call, nothing depends on the slot any more. -/
theorem exchanges_received (hexchange : action.Exchange expected new observe) {result : Yield}
    {register : Register} {record : List Stage}
    (hphase : (Phase.done result).Exchanges expected new observe register (storedIn record)
      (effectsOf record)) (kind : CellKind) :
    Exchanges action expected new observe asked register
      (asked ++ (record ++ [.calling (.done result)])) (received kind result action) := by
  obtain ⟨seen, waits, rfl, hstored, hwaits, heffects⟩ := hphase.done
  have hstoredAfter := storedIn_concat record
    (.calling (.done ((Errand.exchange expected new observe).settle seen).1))
  have heffectsAfter := effectsOf_concat record
    (.calling (.done ((Errand.exchange expected new observe).settle seen).1))
  simp only [hexchange.received, giveBack]
  split
  · rename_i unit hunit
    refine .releasing register
      (⟨?_, ?_, ?_, rfl⟩ : Exchanged action expected new observe seen _ waits _ _)
    · rw [hstoredAfter, hstored]
      exact Bool.or_false _
    · rw [hstoredAfter]
      exact (Bool.or_false _).symm ▸ hwaits
    · rw [heffectsAfter, heffects, hunit]
      simp [effect?, Phase.effect?]
  · rename_i hunit
    refine .finished register
      (⟨?_, ?_, ?_, rfl⟩ : Exchanged action expected new observe seen _ waits _ _)
    · rw [hstoredAfter, hstored]
      exact Bool.or_false _
    · rw [hstoredAfter]
      exact (Bool.or_false _).symm ▸ hwaits
    · rw [heffectsAfter, heffects, hunit]
      simp [effect?, Phase.effect?]

theorem Exchanges.step {kind : CellKind} {guard : Guard} {facts : ObjectId → Facts}
    {shape : Layout → ObjectId → Shape} {slot next : Slot} {stage later : Stage}
    {effect : Option Effect} {record : List Stage}
    (hexchange : action.Exchange expected new observe)
    (hexchanges : stage.Exchanges action expected new observe asked slot.register record)
    (hstep : stage.step kind guard action facts shape slot = some (next, later, effect)) :
    later.Exchanges action expected new observe asked next.register (record ++ [stage]) := by
  cases hexchanges with
  | asking hnew hasked =>
    cases move_of_step hstep with
    | accept =>
      have hcalling : Exchanges action expected new observe asked slot.register (asked ++ [])
          (.calling (.locking (.exchange expected new observe))) := .calling (.locking _)
      rw [List.nil_append, ← hasked]
      rwa [List.append_nil] at hcalling
    | stop =>
      rw [List.nil_append, ← hasked]
      exact .rejecting _ hnew hasked
  | rejecting hnew hasked =>
    cases hstep
    exact .rejected _ hnew hasked
  | rejected => cases hstep
  | calling hphase =>
    rw [List.append_assoc]
    rcases step_calling hstep with ⟨result, rfl, rfl, rfl, rfl⟩ | ⟨after, hafter, rfl⟩
    · exact exchanges_received hexchange hphase kind
    · apply Exchanges.calling
      rw [storedIn_concat, effectsOf_concat, effect?, ← Phase.effect_step hafter]
      exact hphase.step hafter
  | releasing hexchanged =>
    cases hstep
    rw [List.append_assoc]
    exact .finished _ hexchanged.released
  | finished => cases hstep

theorem Exchanges.turn {stage : Stage} {register : Register} {record : List Stage}
    (hexchanges : stage.Exchanges action expected new observe asked register record)
    (hlock : stage.phase.holdsLock = false) (turned : Register) :
    stage.Exchanges action expected new observe asked turned record := by
  cases hexchanges with
  | asking hnew hasked => exact .asking turned hnew hasked
  | rejecting hnew hasked => exact .rejecting turned hnew hasked
  | rejected hnew hasked => exact .rejected turned hnew hasked
  | calling hphase => exact .calling (hphase.turn hlock turned)
  | releasing hexchanged => exact .releasing turned hexchanged
  | finished hexchanged => exact .finished turned hexchanged

end Stage

/-- The stages before a call goes to the slot. -/
def Action.askings (kind : CellKind) (action : Action) : List Stage :=
  match kind, action.new? with
  | .atomic, some new => [.asking new (action.errand kind)]
  | _, _ => []

theorem Stage.exchanges_opening (hexchange : action.Exchange expected new observe)
    (kind : CellKind) (register : Register) :
    (action.opening kind).Exchanges action expected new observe (action.askings kind) register
      [] := by
  have hlocking : Exchanges action expected new observe [] register ([] ++ [])
      (.calling (.locking (.exchange expected new observe))) := .calling (.locking register)
  cases kind with
  | atomic =>
    cases new with
    | some obj =>
      simp only [Action.opening, Action.askings, hexchange.errand, hexchange.new?]
      exact .asking register rfl rfl
    | none =>
      simp only [Action.opening, Action.askings, hexchange.errand, hexchange.new?]
      exact hlocking
  | freezable | slot =>
    simp only [Action.opening, Action.askings, hexchange.errand]
    exact hlocking

end Cell

/-! ## Ends of exchanges -/

/-- What a guard is asked about that admits what is to be stored. -/
def CellKind.questions (kind : CellKind) (new : Option ObjectId) : List Effect :=
  if kind = .atomic then new.toList.map .ask else []

namespace Action

variable {action : Action} {expected : Option (Option ObjectId)} {new : Option ObjectId}
  {observe : Bool}

theorem effectsOf_askings (hnew : action.new? = new) (kind : CellKind) :
    effectsOf (action.askings kind) = kind.questions new := by
  subst hnew
  cases kind <;> cases hnew : action.new? <;>
    simp [askings, CellKind.questions, effectsOf, Stage.effect?, hnew]

theorem storedIn_askings (kind : CellKind) : storedIn (action.askings kind) = false := by
  cases kind <;> cases hnew : action.new? <;>
    simp [askings, storedIn, Stage.phase, Phase.stores, hnew]

/-- How an exchange ends that has made its steps from these stages. -/
inductive Exchanged (kind : CellKind) (action : Action) (expected : Option (Option ObjectId))
    (new : Option ObjectId) (observe : Bool) (record : List Stage) : Outcome → Prop where
  /-- The guard has rejected what was to be stored. -/
  | rejected {obj : ObjectId} (hkind : kind = .atomic) (hnew : new = some obj)
      (hstored : storedIn record = false) (heffects : effectsOf record = [.ask obj, .reject obj]) :
      Exchanged kind action expected new observe record (.rejected obj)
  /-- Everything follows from what the call has found. -/
  | settled (seen : Register) (waits : List Effect)
      (hstored : storedIn record =
        ((Errand.exchange expected new observe).settle seen).2.isSome)
      (hwaits : Effect.Waits (storedIn record) waits)
      (heffects : effectsOf record = kind.questions new ++
        ((Errand.exchange expected new observe).acquired seen).map .acquire ++ waits ++
          (action.settled ((Errand.exchange expected new observe).settle seen).1).1.toList.map
            .release) :
      Exchanged kind action expected new observe record
        (action.settled ((Errand.exchange expected new observe).settle seen).1).2

end Action

theorem Stage.Exchanges.ended {kind : CellKind} {action : Action}
    {expected : Option (Option ObjectId)} {new : Option ObjectId} {observe : Bool}
    {register : Register} {record : List Stage} {outcome : Outcome}
    (hexchange : action.Exchange expected new observe)
    (hexchanges : Stage.Exchanges action expected new observe (action.askings kind) register record
      (.finished outcome)) : action.Exchanged kind expected new observe record outcome := by
  cases hexchanges with
  | @rejected obj hnew hasked =>
    have hkind : kind = .atomic := by
      cases kind with
      | atomic => rfl
      | freezable | slot => cases hasked
    refine .rejected hkind hnew ?_ ?_
    · rw [storedIn_concat, Action.storedIn_askings]
      rfl
    · rw [effectsOf_concat, hasked]
      rfl
  | @finished seen record waits _ hexchanged =>
    obtain ⟨hstored, hwaits, heffects, rfl⟩ := hexchanged
    rw [List.append_nil] at heffects
    refine .settled seen waits ?_ ?_ ?_
    · rw [storedIn_append, Action.storedIn_askings, Bool.false_or, hstored]
    · rwa [storedIn_append, Action.storedIn_askings, Bool.false_or]
    · simp only [effectsOf_append, Action.effectsOf_askings hexchange.new?, heffects,
        List.append_assoc]

end SharedCell
