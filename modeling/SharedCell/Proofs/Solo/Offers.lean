import Mathlib
import SharedCell.Proofs.Agenda.Questions
import SharedCell.Proofs.Solo.Comparisons

/-!
# What is offered to an atomic cell

Four operations offer an atomic cell a new content.  Whether they fail depends on nothing but what
the guard says about the new content: it is asked once, before anything else happens, and about
nothing else.  An operation that fails leaves a question and a rejection in the log, and everything
else as it was.  A freezable cell asks its guard about its own content when it is frozen, and needs
a unit on the content for that.
-/

namespace SharedCell

open Text

variable {β : Type} [Resident β] {world next : World β} {effects : List Effect} {reply : Reply}

/-- The operations that offer an atomic cell a new content. -/
def Verb.offers : Verb → Bool
  | .set | .replace | .compareAndSwap | .compareAndSet => true
  | _ => false

/-- Whether units are acquired or released by an effect. -/
def Effect.deals : Effect → Bool
  | .acquire _ | .release _ => true
  | _ => false

theorem Effect.deals_map {units released : List ObjectId} {effect : Effect}
    (heffect : effect ∈ units.map .acquire ++ released.map .release) : effect.deals = true := by
  rcases List.mem_append.mp heffect with hacquired | hreleased
  · obtain ⟨unit, -, rfl⟩ := List.mem_map.mp hacquired
    rfl
  · obtain ⟨unit, -, rfl⟩ := List.mem_map.mp hreleased
    rfl

namespace Action

variable {action : Action} {expected : Option (Option ObjectId)} {new : Option ObjectId}
  {observe : Bool}

/-- The slot never leads to a rejection. -/
theorem settled_ne_rejected (action : Action) (result : Yield) (obj : ObjectId) :
    (action.settled result).2 ≠ .rejected obj := by
  cases action <;> simp [settled]

theorem Exchange.plain (hexchange : action.Exchange expected new observe) :
    action ≠ .copy ∧ action ≠ .freeze := by
  cases hexchange <;> simp

end Action

/-- An outcome that is no rejection is no fault to the caller. -/
theorem Outcome.reply_ne_fault {outcome : Outcome} (hadmitted : ∀ obj, outcome ≠ .rejected obj)
    (fault : Fault) : outcome.reply ≠ .fault fault := by
  cases outcome with
  | rejected obj => exact absurd rfl (hadmitted obj)
  | _ => simp [reply]

namespace Operation

open Attempt

variable {op : Operation} {name : String} {cell : Cell} {call : Call} {fresh : Option ObjectId}

/-- What an operation comes to that offers a cell something. -/
structure Offers (op : Operation) (world : World β) (guard : Guard) (fresh : Option ObjectId) :
    Prop where
  /-- If the guard rejects it, nothing happens but that this is logged. -/
  refused : ∀ obj, fresh = some obj → guard.accepts (world.facts obj) = false →
    ∀ effects next reply, op.Does world effects next reply ↔
      effects = [.ask obj, .reject obj] ∧ next = world.refused 0 guard obj ∧
        reply = .fault (.unshareable obj)
  /-- If the guard admits it, it is asked before units are acquired and released, and the operation
  does not fail. -/
  admitted : guard.admits world.facts fresh = true → ∃ deals next reply,
    op.Does world (fresh.toList.map .ask ++ deals) next reply ∧
      (∀ effect ∈ deals, effect.deals = true) ∧ ∀ fault, reply ≠ .fault fault

variable {new expected : Arg} {verb : Verb}

/-- Nothing is compared. -/
theorem exists_calls_plainly (hcell : world.cell? name = some cell) (hunused : cell.Unused)
    (hnew : world.meaning? new = some fresh) {action : Action}
    (hcomparing : comparing cell.kind verb = none)
    (hcopy : (copyName cell.kind verb : Attempt β (Option String)) = pure none)
    (haction : action? cell.kind none fresh verb = some action) (target : Option String) :
    ∃ call, (onCell (some name) verb new expected target).Calls world cell call ∧
      call.action = action := by
  obtain ⟨found, hfound, rfl, hlends⟩ := arg_meaning hnew
  have hcompared : (comparand cell.kind verb expected : Attempt β _).run world =
      .ok ((none, none), world) := by
    rw [comparand, hcomparing]
    rfl
  refine ⟨_, .onCell hcell hunused hfound hcompared (by rw [hcopy]; rfl) haction ?_, rfl⟩
  intro holder hholder
  exact hlends holder (by simpa [eq_comm] using hholder)

/-- An operation that offers something makes a call that is to store it. -/
theorem exists_calls_offer (hcell : world.cell? name = some cell) (hunused : cell.Unused)
    (hkind : cell.kind = .atomic) (hoffers : verb.offers = true)
    (hnew : world.meaning? new = some fresh)
    (hexpected : comparing .atomic verb = some .byHandle → (world.meaning? expected).isSome = true)
    (target : Option String) :
    ∃ call expectation observe, (onCell (some name) verb new expected target).Calls world cell call ∧
      call.action.Exchange expectation fresh observe := by
  have hcompares (action : Option ObjectId → Action)
      (hcomparing : comparing .atomic verb = some .byHandle)
      (haction : ∀ wanted, action? .atomic wanted fresh verb = some (action wanted)) :
      ∃ wanted call, (onCell (some name) verb new expected target).Calls world cell call ∧
        call.action = action wanted := by
    obtain ⟨wanted, hwanted⟩ := Option.isSome_iff_exists.mp (hexpected hcomparing)
    obtain ⟨holders, hcalls⟩ := exists_calls_byHandle hcell hunused hnew hwanted target
    rw [hkind] at hcalls
    exact ⟨wanted, _, hcalls verb (action wanted) hcomparing (haction wanted), rfl⟩
  cases verb <;> cases hoffers
  case set =>
    obtain ⟨call, hcalls, haction⟩ := exists_calls_plainly hcell hunused hnew (by rw [hkind]; rfl)
      (by rw [hkind]; rfl) (by rw [hkind]; rfl : action? cell.kind none fresh .set = _) target
    refine ⟨call, none, false, hcalls, ?_⟩
    rw [haction]
    exact .set fresh
  case replace =>
    obtain ⟨call, hcalls, haction⟩ := exists_calls_plainly hcell hunused hnew (by rw [hkind]; rfl)
      (by rw [hkind]; rfl) (by rw [hkind]; rfl : action? cell.kind none fresh .replace = _) target
    refine ⟨call, none, false, hcalls, ?_⟩
    rw [haction]
    exact .replace fresh
  case compareAndSwap =>
    obtain ⟨wanted, call, hcalls, haction⟩ :=
      hcompares (.compareAndSwap · fresh) rfl fun _ => rfl
    refine ⟨call, some wanted, true, hcalls, ?_⟩
    rw [haction]
    exact .compareAndSwap wanted fresh
  case compareAndSet =>
    obtain ⟨wanted, call, hcalls, haction⟩ :=
      hcompares (.compareAndSet · fresh) rfl fun _ => rfl
    refine ⟨call, some wanted, false, hcalls, ?_⟩
    rw [haction]
    exact .compareAndSet wanted fresh

variable [Lawful β] [Reticent β]

/-- What is offered is screened before anything else happens. -/
theorem offers_onCell (hsound : world.Sound 0) (htraced : world.traced = true)
    (hcell : world.cell? name = some cell) (hkind : cell.kind = .atomic)
    (hoffers : verb.offers = true) (hnew : world.meaning? new = some fresh)
    (hexpected : comparing .atomic verb = some .byHandle → (world.meaning? expected).isSome = true)
    (target : Option String) :
    (onCell (some name) verb new expected target).Offers world cell.guard fresh := by
  obtain ⟨hunused, hplain⟩ := hsound.cell_resting hcell
  obtain ⟨call, expectation, observe, hcalls, hexchange⟩ :=
    exists_calls_offer hcell hunused hkind hoffers hnew hexpected target
  constructor
  case refused =>
    intro obj hobj hrefuses effects next reply
    rw [hcalls.does_refused hsound hkind (hexchange.new?.trans hobj) hrefuses,
      World.undergo_refused htraced]
  case admitted =>
    intro hadmits
    have hconduct := @Action.conduct_exchange call.action _ _ _ cell.kind cell.guard world.facts
      world.shape cell.slot.register hexchange fun _ => Guard.admits_eq_true.mp hadmits
    obtain ⟨effects, next, reply, hdoes⟩ := exists_does hsound
      (rfl : (onCell (some name) verb new expected target).ordinary = true)
    obtain ⟨rfl, rfl, -⟩ :=
      (hcalls.does_closes hsound hplain hexchange.plain.1 hexchange.plain.2 hconduct).mp hdoes
    rw [Conduct.effects, hkind, CellKind.questions, if_pos rfl, List.append_assoc] at hdoes
    exact ⟨_, next, _, hdoes, fun effect => Effect.deals_map,
      Outcome.reply_ne_fault (call.action.settled_ne_rejected _)⟩

/-! ## Freezing a cell -/

/-- What the freezing of a cell comes to. -/
structure Freezes (world : World β) (name : String) (guard : Guard) (content : Option ObjectId) :
    Prop where
  /-- There is nothing to ask about. -/
  empty : content = none → ∃ next, (freezeCell (some name)).Does world [] next .ok ∧
    (world.shareCell name).Agrees next
  accepted : ∀ obj, content = some obj → guard.accepts (world.facts obj) = true →
    ∃ next, (freezeCell (some name)).Does world [.acquire obj, .ask obj, .release obj] next .ok ∧
      (world.shareCell name).Agrees next
  /-- The cell is what it was, and the unit that was acquired is given back. -/
  refused : ∀ obj, content = some obj → guard.accepts (world.facts obj) = false →
    ∃ next, (freezeCell (some name)).Does world [.acquire obj, .ask obj, .reject obj, .release obj]
      next (.fault (.unshareable obj)) ∧ world.Agrees next

omit [Lawful β] in
/-- The guard of a cell is asked about the content, on which there is a unit meanwhile. -/
theorem freezes_cell [Restoring β] (hsound : world.Sound 0) (hcell : world.cell? name = some cell)
    (hkind : cell.kind = .freezable) : Freezes world name cell.guard cell.slot.content := by
  obtain ⟨hunused, hplain⟩ := hsound.cell_resting hcell
  obtain ⟨haccepted, hrefused⟩ := performs_freezeCell hsound hcell hkind
  have heffects {next : World β} {reply : Reply}
      (hperforms : (freezeCell (some name)).Performs world next reply) :
      (freezeCell (some name)).Does world (Action.freeze.conduct .freezable cell.guard world.facts
        world.shape cell.slot.register).effects next reply := by
    obtain ⟨effects, hdoes⟩ := hperforms.does
    have hconcluding := ((Calls.freezeCell hcell hkind hunused).does_iff hsound hplain).mp hdoes
    rw [hkind] at hconcluding
    exact hconcluding.1 ▸ hdoes
  have hregister : cell.slot.register.content = cell.slot.content := rfl
  constructor
  case empty =>
    intro hempty
    obtain ⟨next, hperforms, hagrees⟩ := haccepted fun obj hobj => by simp [hempty] at hobj
    refine ⟨next, ?_, hagrees⟩
    simpa [Action.conduct, Action.handling, Action.errand, Action.new?, Errand.settle,
      Errand.acquired, hregister, hempty, Stage.received, Stage.remainder, Conduct.effects] using
      heffects hperforms
  case accepted =>
    intro obj hobj haccepts
    obtain ⟨next, hperforms, hagrees⟩ := haccepted fun other hother => by
      rwa [Option.some.inj (hother.symm.trans hobj)]
    refine ⟨next, ?_, hagrees⟩
    simpa [Action.conduct, Action.handling, Action.errand, Action.new?, Errand.settle,
      Errand.acquired, hregister, hobj, Stage.received, Stage.remainder, Conduct.effects,
      haccepts] using heffects hperforms
  case refused =>
    intro obj hobj hrefuses
    obtain ⟨next, hperforms, hagrees⟩ := hrefused obj hobj hrefuses
    refine ⟨next, ?_, hagrees⟩
    simpa [Action.conduct, Action.handling, Action.errand, Action.new?, Errand.settle,
      Errand.acquired, hregister, hobj, Stage.received, Stage.remainder, Conduct.effects,
      hrefuses] using heffects hperforms

end Operation

end SharedCell
