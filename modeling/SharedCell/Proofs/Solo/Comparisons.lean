import Mathlib
import SharedCell.Proofs.Cell.Exchange
import SharedCell.Proofs.Solo.Ending
import SharedCell.Proofs.Solo.Operations

/-!
# Conditional replacements

Four operations replace the content of a cell if it is what was expected.  On a match they do the
same to the cell and acquire the same units; they differ in what they yield, and in whether they
want a unit on a content that they did not expect.  What was expected is compared as an address
only: none of them acquires it, gives it back or asks a guard about it, unless it is also what the
cell holds or is to hold.
-/

namespace SharedCell

open Text

namespace Action

/-- What an action compares the content with, and what it is to replace it by. -/
def comparison? : Action → Option (Option ObjectId × Option ObjectId)
  | .compareAndSwap expected new | .compareAndSet expected new
  | .swap expected new | .swapIf expected new => some (expected, new)
  | _ => none

/-- What a comparison ends with that has found a content. -/
def verdict (seen : Option ObjectId) : Action → Outcome
  | .compareAndSwap _ _ => .unit seen
  | .compareAndSet expected _ => .flag (seen == expected)
  | .swap expected _ => .swapped (seen == expected) seen
  | .swapIf expected _ => .swapped (seen == expected) (if seen = expected then seen else none)
  | _ => .done

/-- The units that a comparison acquires which has found a content. -/
def gains (seen : Option ObjectId) : Action → List ObjectId
  | .compareAndSwap expected new | .swap expected new =>
      (if seen = expected then new else seen).toList
  | .compareAndSet expected new | .swapIf expected new =>
      if seen = expected then new.toList else []
  | _ => []

/-- The unit that a comparison gives back which has found a content. -/
def returns (seen : Option ObjectId) : Action → Option ObjectId
  | .compareAndSet expected _ => if seen = expected then seen else none
  | _ => none

/-- What a comparison stores that has found a content. -/
def stores (seen : Option ObjectId) : Action → Option (Option ObjectId)
  | .compareAndSwap expected new | .compareAndSet expected new
  | .swap expected new | .swapIf expected new => if seen = expected then some new else none
  | _ => none

variable {action : Action} {expected new : Option ObjectId}

/-- Whether a unit is wanted on a content that was not expected. -/
def observes : Action → Bool
  | .compareAndSwap _ _ | .swap _ _ => true
  | _ => false

theorem exchange_of_comparison (hcomparison : action.comparison? = some (expected, new)) :
    action.Exchange (some expected) new action.observes := by
  cases action <;> cases hcomparison <;> constructor

/-- What compares may replace the content. -/
theorem looks_of_comparison (hcomparison : action.comparison? = some (expected, new)) :
    action.looks = false := by
  cases action <;> first | rfl | cases hcomparison

/-- A comparison does what it does since it has found a content. -/
theorem settle_comparison (hcomparison : action.comparison? = some (expected, new))
    (seen : Register) :
    ((Errand.exchange (some expected) new action.observes).settle seen).2 =
        action.stores seen.content ∧
      (Errand.exchange (some expected) new action.observes).acquired seen =
        action.gains seen.content ∧
      action.settled ((Errand.exchange (some expected) new action.observes).settle seen).1 =
        (action.returns seen.content, action.verdict seen.content) := by
  by_cases hsame : seen.content = expected
  · cases action <;> cases hcomparison <;>
      simp [Errand.acquired, Errand.settle_same hsame, hsame, stores, gains, settled, returns,
        verdict]
  · cases action <;> cases hcomparison <;>
      simp [Errand.acquired, Errand.settle_other hsame, hsame, observes, stores, gains, settled,
        returns, verdict]

/-- What is not expected is left alone. -/
theorem stores_isSome (hcomparison : action.comparison? = some (expected, new))
    (seen : Option ObjectId) : (action.stores seen).isSome = true ↔ seen = expected := by
  by_cases hsame : seen = expected <;> cases action <;> cases hcomparison <;> simp [stores, hsame]

end Action

namespace Stage

variable {kind : CellKind} {guard : Guard} {action : Action} {facts : ObjectId → Facts}
  {shape : Layout → ObjectId → Shape}

theorem remainder_giveBack (unit : Option ObjectId) (outcome : Outcome) :
    (giveBack unit outcome).remainder kind guard action facts shape = { spare := unit, outcome } := by
  cases unit <;> rfl

end Stage

namespace Action

variable {action : Action} {expected : Option (Option ObjectId)} {new : Option ObjectId}
  {observe : Bool} {kind : CellKind} {guard : Guard} {facts : ObjectId → Facts}
  {shape : Layout → ObjectId → Shape} {register : Register}

/-- What an exchange does once its guard has been asked. -/
theorem handling_exchange (hexchange : action.Exchange expected new observe) :
    action.handling kind guard facts shape register =
      { quiet := ((Errand.exchange expected new observe).acquired register).map .acquire
        stored := ((Errand.exchange expected new observe).settle register).2
        spare := (action.settled ((Errand.exchange expected new observe).settle register).1).1
        outcome :=
          (action.settled ((Errand.exchange expected new observe).settle register).1).2 } := by
  simp only [handling, hexchange.errand kind, hexchange.received kind, Stage.remainder_giveBack,
    List.append_nil]

end Action

/-- The conduct of an exchange whose new content is admitted. -/
theorem Action.conduct_exchange {action : Action} {expected : Option (Option ObjectId)}
    {new : Option ObjectId} {observe : Bool} {kind : CellKind} {guard : Guard}
    {facts : ObjectId → Facts} {shape : Layout → ObjectId → Shape} {register : Register}
    (hexchange : action.Exchange expected new observe)
    (hadmits : kind = .atomic → ∀ obj, new = some obj → guard.accepts (facts obj) = true) :
    action.conduct kind guard facts shape register =
      { quiet := kind.questions new ++
          ((Errand.exchange expected new observe).acquired register).map .acquire
        stored := ((Errand.exchange expected new observe).settle register).2
        spare := (action.settled ((Errand.exchange expected new observe).settle register).1).1
        outcome :=
          (action.settled ((Errand.exchange expected new observe).settle register).1).2 } := by
  have hnew := hexchange.new?
  cases kind with
  | atomic =>
    cases new with
    | none =>
      simp only [conduct, hnew, handling_exchange hexchange]
      rfl
    | some obj =>
      simp only [conduct, hnew, handling_exchange hexchange, hadmits rfl obj rfl, if_true]
      rfl
  | freezable => exact handling_exchange hexchange
  | slot => exact handling_exchange hexchange

/-! ## Operations -/

variable {β : Type} [Resident β] {world next : World β} {effects : List Effect} {reply : Reply}

namespace World

/-- The world in which the content of a cell was replaced, if it was. -/
def settleIn (world : World β) (name : String) : Option (Option ObjectId) → World β
  | some new => world.modifyCell name fun cell => { cell with slot := cell.slot.store new }
  | none => world

omit [Resident β] in
/-- A slot that nobody is calling has nothing but its register. -/
theorem settleIn_eq {name : String} {cell : Cell} (hnames : (world.cells.map Prod.fst).Nodup)
    (hcell : world.cell? name = some cell) (hplain : cell.slot = cell.slot.register.slot)
    (stored : Option (Option ObjectId)) :
    world.modifyCell name ({ · with slot := (cell.slot.register.after stored).slot }) =
      world.settleIn name stored := by
  cases stored with
  | none => exact modifyCell_self hnames hcell (by rw [Register.after, ← hplain])
  | some new =>
    rw [settleIn]
    refine modifyCell_congr hnames hcell ?_
    rw [hplain]
    rfl

end World

namespace Operation

open Attempt

variable {op : Operation} {name : String} {cell : Cell} {call : Call} {wanted fresh : Option ObjectId}

/-- What an operation does that compares, what it leaves and what it replies follow from the content
that it finds. -/
theorem Calls.does_comparison [Lawful β] [Reticent β] {stakes : Stakes}
    (hcalls : op.Calls world cell call) (hsound : world.Sound stakes)
    (hplain : cell.slot = cell.slot.register.slot)
    (hcomparison : call.action.comparison? = some (wanted, fresh))
    (hadmits : cell.kind = .atomic → ∀ obj, fresh = some obj →
      cell.guard.accepts (world.facts obj) = true) :
    op.Does world effects next reply ↔
      effects = cell.kind.questions fresh ++
        (call.action.gains cell.slot.content).map .acquire ++
          (call.action.returns cell.slot.content).toList.map .release ∧
      reply = (call.action.verdict cell.slot.content).reply ∧
      Solo.Closes ((world.settleIn call.cell (call.action.stores cell.slot.content)).undergo
          cell.guard (cell.kind.questions fresh ++
            (call.action.gains cell.slot.content).map .acquire)) call.cell call.holders false
        ((call.action.returns cell.slot.content).toList.map .release ++
          (call.action.verdict cell.slot.content).units.flatMap fun unit =>
            delivery call.target (some unit)) next := by
  have hplainly : call.action ≠ .copy ∧ call.action ≠ .freeze := by
    constructor <;> intro haction <;> rw [haction] at hcomparison <;> cases hcomparison
  have hlooks : call.action.looks = false := Action.looks_of_comparison hcomparison
  have hexchange := Action.exchange_of_comparison hcomparison
  obtain ⟨hstores, hgains, hsettled⟩ :=
    Action.settle_comparison hcomparison cell.slot.register
  have hconduct := @Action.conduct_exchange call.action _ _ _ cell.kind cell.guard world.facts
    world.shape cell.slot.register hexchange hadmits
  rw [hstores, hgains, hsettled] at hconduct
  rw [hcalls.does_closes hsound hplain hplainly.1 hplainly.2 hconduct,
    World.settleIn_eq hsound.housed.names hcalls.found hplain, hlooks]
  rfl

omit [Resident β] in
/-- Nothing that compares is a copy. -/
theorem copyName_of_comparing {kind : CellKind} {verb : Verb} {comparand : Comparand}
    (hcomparing : comparing kind verb = some comparand) :
    (copyName kind verb : Attempt β (Option String)) = pure none := by
  cases kind <;> cases verb <;> first | rfl | cases hcomparing

/-- A slot compares its content with an address. -/
theorem exists_calls_byAddress {new expected : Arg} (hcell : world.cell? name = some cell)
    (hunused : cell.Unused) (hnew : world.meaning? new = some fresh)
    (hwanted : (address expected : Attempt β (Option ObjectId)).run world = .ok (wanted, world))
    (target : Option String) :
    ∃ holders, ∀ verb action, comparing cell.kind verb = some .byAddress →
      action? cell.kind wanted fresh verb = some action →
      (onCell (some name) verb new expected target).Calls world cell
        { cell := name, action, stage := action.opening cell.kind, target, holders } := by
  obtain ⟨found, hfound, rfl, hlends⟩ := arg_meaning hnew
  refine ⟨[none, found].filterMap (·.map (·.id)), fun verb action hcomparing haction => ?_⟩
  have hcompared : (comparand cell.kind verb expected : Attempt β _).run world =
      .ok ((none, wanted), world) := by
    rw [comparand, hcomparing]
    exact (run_bind_ok hwanted).trans rfl
  refine .onCell hcell hunused hfound hcompared ?_ haction fun holder hholder => ?_
  · rw [copyName_of_comparing hcomparing]
    rfl
  · exact hlends holder (by simpa [eq_comm] using hholder)

/-- Other cells compare their content with the object of a handle. -/
theorem exists_calls_byHandle {new expected : Arg} (hcell : world.cell? name = some cell)
    (hunused : cell.Unused) (hnew : world.meaning? new = some fresh)
    (hwanted : world.meaning? expected = some wanted) (target : Option String) :
    ∃ holders, ∀ verb action, comparing cell.kind verb = some .byHandle →
      action? cell.kind wanted fresh verb = some action →
      (onCell (some name) verb new expected target).Calls world cell
        { cell := name, action, stage := action.opening cell.kind, target, holders } := by
  obtain ⟨found, hfound, rfl, hlends⟩ := arg_meaning hnew
  obtain ⟨compared, hexpected, rfl, hcomparedLends⟩ := arg_meaning hwanted
  refine ⟨[compared, found].filterMap (·.map (·.id)), fun verb action hcomparing haction => ?_⟩
  have hcompared : (comparand cell.kind verb expected : Attempt β _).run world =
      .ok ((compared, compared.map (·.unit)), world) := by
    rw [comparand, hcomparing]
    exact (run_bind_ok hexpected).trans rfl
  refine .onCell hcell hunused hfound hcompared ?_ haction fun holder hholder => ?_
  · rw [copyName_of_comparing hcomparing]
    rfl
  · rcases List.mem_pair.mp hholder with hsame | hsame
    · exact hcomparedLends holder hsame.symm
    · exact hlends holder hsame.symm

/-! ## In a world that nobody acts on -/

section Resting

variable (world name) (new expected : Arg) (target : Option String) (seen wanted fresh : Option ObjectId)

/-- What the two conditional replacements of a slot come to that holds `seen` when they expect
`wanted` and are to store `fresh`. -/
structure Swapping : Prop where
  /-- On a match they do the same: they acquire a unit on what they store, replace the content, which
  counts as a new version, and yield the old content. -/
  matched : seen = wanted → ∃ holders, ∀ verb, verb = .swap ∨ verb = .swapIf →
    ∀ effects next reply,
      (onCell (some name) verb new expected target).Does world effects next reply ↔
        effects = fresh.toList.map .acquire ∧ reply = .swapped true wanted ∧
          Solo.Closes ((world.settleIn name (some fresh)).acquireAll 0 fresh.toList) name holders
            false (delivery target wanted) next
  /-- On a mismatch the cell is left alone, and a fresh unit on its content is yielded. -/
  observed : seen ≠ wanted → ∃ holders, ∀ effects next reply,
    (onCell (some name) .swap new expected target).Does world effects next reply ↔
      effects = seen.toList.map .acquire ∧ reply = .swapped false seen ∧
        Solo.Closes (world.acquireAll 0 seen.toList) name holders false (delivery target seen) next
  /-- On a mismatch nothing at all happens. -/
  declined : seen ≠ wanted → ∀ effects next reply,
    (onCell (some name) .swapIf new expected target).Does world effects next reply ↔
      effects = [] ∧ reply = .swapped false none ∧ next = world
  /-- Both come to an end. -/
  ends : ∀ verb, verb = .swap ∨ verb = .swapIf → ∃ effects next reply,
    (onCell (some name) verb new expected target).Does world effects next reply

/-- What the two conditional replacements of a cell come to. -/
structure Comparing (kind : CellKind) (guard : Guard) : Prop where
  /-- What an atomic cell rejects is reported and nothing else happens, whether or not there is a
  match. -/
  refused : kind = .atomic → ∀ obj, fresh = some obj → guard.accepts (world.facts obj) = false →
    ∀ verb, verb = .compareAndSwap ∨ verb = .compareAndSet → ∀ effects next reply,
      (onCell (some name) verb new expected target).Does world effects next reply ↔
        effects = [.ask obj, .reject obj] ∧ next = world.undergo guard [.ask obj, .reject obj] ∧
          reply = .fault (.unshareable obj)
  /-- On a match both replace the content.  One yields the old content, the other one gives back
  the unit on it and tells that it has replaced. -/
  matched : (kind = .atomic → ∀ obj, fresh = some obj → guard.accepts (world.facts obj) = true) →
    seen = wanted → ∃ holders, ∀ effects next reply,
      let quiet := kind.questions fresh ++ fresh.toList.map .acquire
      ((onCell (some name) .compareAndSwap new expected target).Does world effects next reply ↔
        effects = quiet ∧ reply = .unit wanted ∧
          Solo.Closes ((world.settleIn name (some fresh)).undergo guard quiet) name holders
            false (delivery target wanted) next) ∧
      ((onCell (some name) .compareAndSet new expected target).Does world effects next reply ↔
        effects = quiet ++ wanted.toList.map .release ∧ reply = .flag true ∧
          Solo.Closes ((world.settleIn name (some fresh)).undergo guard quiet) name holders
            false (wanted.toList.map .release) next)
  /-- On a mismatch both leave the cell alone.  One yields a fresh unit on the content, which is
  not what was expected, the other one tells that it has not replaced. -/
  mismatched : (kind = .atomic → ∀ obj, fresh = some obj → guard.accepts (world.facts obj) = true) →
    seen ≠ wanted → ∃ holders, ∀ effects next reply,
      ((onCell (some name) .compareAndSwap new expected target).Does world effects next reply ↔
        effects = kind.questions fresh ++ seen.toList.map .acquire ∧ reply = .unit seen ∧
          Solo.Closes (world.undergo guard (kind.questions fresh ++ seen.toList.map .acquire)) name
            holders false (delivery target seen) next) ∧
      ((onCell (some name) .compareAndSet new expected target).Does world effects next reply ↔
        effects = kind.questions fresh ∧ reply = .flag false ∧
          next = world.undergo guard (kind.questions fresh))
  /-- Both come to an end. -/
  ends : ∀ verb, verb = .compareAndSwap ∨ verb = .compareAndSet → ∃ effects next reply,
    (onCell (some name) verb new expected target).Does world effects next reply

end Resting

section Proofs

variable [Lawful β] [Reticent β] {new expected : Arg} {target : Option String}

omit [Reticent β] in
theorem exists_does (hsound : world.Sound 0) (hordinary : op.ordinary = true) :
    ∃ effects next reply, op.Does world effects next reply := by
  obtain ⟨effects, hdoes⟩ := (performs_perform hsound hordinary).does
  exact ⟨effects, _, _, hdoes⟩

omit [Resident β] [Lawful β] [Reticent β] in
theorem delivery_units (target : Option String) (unit : Option ObjectId) :
    (unit.toList.flatMap fun unit => delivery target (some unit)) = delivery target unit := by
  cases unit <;> simp [delivery]

theorem swapping (hsound : world.Sound 0) (hcell : world.cell? name = some cell)
    (hkind : cell.kind = .slot) (hnew : world.meaning? new = some fresh)
    (hwanted : (address expected : Attempt β (Option ObjectId)).run world = .ok (wanted, world)) :
    Swapping world name new expected target cell.slot.content wanted fresh := by
  obtain ⟨hunused, hplain⟩ := hsound.cell_resting hcell
  obtain ⟨holders, hcalls⟩ := exists_calls_byAddress hcell hunused hnew hwanted target
  rw [hkind] at hcalls
  have hquestions : cell.kind.questions fresh = [] := by rw [hkind]; rfl
  have hadmits : cell.kind = .atomic → ∀ obj, fresh = some obj →
      cell.guard.accepts (world.facts obj) = true := by
    intro hatomic
    rw [hkind] at hatomic
    cases hatomic
  have hswap := hcalls .swap (.swap wanted fresh) rfl rfl
  have hswapIf := hcalls .swapIf (.swapIf wanted fresh) rfl rfl
  constructor
  case matched =>
    intro hsame
    refine ⟨holders, fun verb hverb effects next reply => ?_⟩
    rcases hverb with rfl | rfl
    · rw [hswap.does_comparison hsound hplain rfl hadmits, hquestions]
      simp [Action.gains, Action.returns, Action.verdict, Action.stores, hsame, Outcome.units,
        Outcome.reply, delivery_units, World.undergo_acquire]
    · rw [hswapIf.does_comparison hsound hplain rfl hadmits, hquestions]
      simp [Action.gains, Action.returns, Action.verdict, Action.stores, hsame, Outcome.units,
        Outcome.reply, delivery_units, World.undergo_acquire]
  case observed =>
    intro hother
    refine ⟨holders, fun effects next reply => ?_⟩
    rw [hswap.does_comparison hsound hplain rfl hadmits, hquestions]
    simp [Action.gains, Action.returns, Action.verdict, Action.stores, hother,
      beq_false_of_ne hother, Outcome.units, Outcome.reply, delivery_units, World.undergo_acquire,
      World.settleIn]
  case declined =>
    intro hother effects next reply
    have hcloses : Solo.Closes (world.undergo cell.guard []) name holders false [] next ↔
        next = world := hswapIf.closes_quiet hsound cell.guard [] false
    rw [hswapIf.does_comparison hsound hplain rfl hadmits, hquestions]
    simp [Action.gains, Action.returns, Action.verdict, Action.stores, hother,
      beq_false_of_ne hother, Outcome.units, Outcome.reply, World.settleIn, hcloses]
  case ends =>
    rintro verb (rfl | rfl) <;> exact exists_does hsound rfl

theorem comparing_cell (hsound : world.Sound 0) (hcell : world.cell? name = some cell)
    (hkind : cell.kind ≠ .slot) (hnew : world.meaning? new = some fresh)
    (hwanted : world.meaning? expected = some wanted) :
    Comparing world name new expected target cell.slot.content wanted fresh cell.kind cell.guard := by
  obtain ⟨hunused, hplain⟩ := hsound.cell_resting hcell
  obtain ⟨holders, hcalls⟩ := exists_calls_byHandle hcell hunused hnew hwanted target
  have hswap := hcalls .compareAndSwap (.compareAndSwap wanted fresh) (if_neg hkind) (if_neg hkind)
  have hset := hcalls .compareAndSet (.compareAndSet wanted fresh) (if_neg hkind) (if_neg hkind)
  constructor
  case refused =>
    intro hatomic obj hobj hrefuses verb hverb effects next reply
    rcases hverb with rfl | rfl
    · exact hswap.does_refused hsound hatomic hobj hrefuses
    · exact hset.does_refused hsound hatomic hobj hrefuses
  case matched =>
    intro hadmits hsame
    refine ⟨holders, fun effects next reply => ⟨?_, ?_⟩⟩
    · rw [hswap.does_comparison hsound hplain rfl hadmits]
      simp [Action.gains, Action.returns, Action.verdict, Action.stores, hsame, Outcome.units,
        Outcome.reply, delivery_units]
    · rw [hset.does_comparison hsound hplain rfl hadmits]
      simp [Action.gains, Action.returns, Action.verdict, Action.stores, hsame, Outcome.units,
        Outcome.reply]
  case mismatched =>
    intro hadmits hother
    refine ⟨holders, fun effects next reply => ⟨?_, ?_⟩⟩
    · rw [hswap.does_comparison hsound hplain rfl hadmits]
      simp [Action.gains, Action.returns, Action.verdict, Action.stores, hother, Outcome.units,
        Outcome.reply, delivery_units, World.settleIn]
    · have hcloses : Solo.Closes (world.undergo cell.guard (cell.kind.questions fresh)) name holders
          false [] next ↔ next = world.undergo cell.guard (cell.kind.questions fresh) :=
        hset.closes_quiet hsound cell.guard (cell.kind.questions fresh) false
      rw [hset.does_comparison hsound hplain rfl hadmits]
      simp [Action.gains, Action.returns, Action.verdict, Action.stores, hother,
        beq_false_of_ne hother, Outcome.units, Outcome.reply, World.settleIn, hcloses]
  case ends =>
    rintro verb (rfl | rfl) <;> exact exists_does hsound rfl

end Proofs

end Operation

end SharedCell
