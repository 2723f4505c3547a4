import Mathlib
import SharedCell.Proofs.Crew.Exchange
import SharedCell.Proofs.Crew.Records
import SharedCell.Proofs.Crew.Teardown
import SharedCell.Proofs.Solo.Offers
import SharedCell.Report.Event

/-!
# Screening

Nothing comes into an atomic cell unless the guard of the cell has admitted it, and nobody gets
around the guard or is held up by anything else.  Whoever offers an object asks the guard about this
object once, and fails if and only if the guard rejects it.  A rejection is logged and reported with
the object that was offered, and is otherwise as if nothing had been asked for.
-/

namespace SharedCell

variable {β : Type} [Resident β]

namespace Crew

variable {crew next : Crew β} {thread : ℕ} {call : Call} {below : List Frame} {cell : Cell}
  {obj : ObjectId}

/-! ## Steps of calls that ask -/

/-- A step of a call that does not touch the slot and interrupts nothing. -/
theorem Sound.step_past (hsound : crew.Sound)
    (hagenda : crew.agendas[thread]? = some (.call call :: below))
    (hcell : crew.world.cell? call.cell = some cell) {stage : Stage} {effect : Effect}
    (hstep : call.stage.step cell.kind cell.guard call.action crew.world.facts crew.world.shape
      cell.slot = some (cell.slot, stage, some effect))
    (hopens : (Call.apply crew.world thread cell.guard effect).2 = []) :
    crew.step thread = some
      { world := (Call.apply crew.world thread cell.guard effect).1
        agendas := crew.agendas.set thread (.call { call with stage } :: below) } := by
  have hself : crew.world.modifyCell call.cell ({ · with slot := cell.slot }) = crew.world :=
    World.modifyCell_self hsound.world.housed.names hcell rfl
  have hcall : call.step crew.world thread = some ((Call.apply crew.world thread cell.guard effect).1,
      [.call { call with stage }]) := by
    rw [Call.step_eq hcell hstep, hself, Call.affect, hopens, List.nil_append]
  have hframe : Frame.step thread crew.world (.call call :: below) =
      some ((Call.apply crew.world thread cell.guard effect).1,
        .call { call with stage } :: below) := by
    rw [Frame.step, hcall]
    rfl
  rw [Crew.step, hagenda]
  simp only [Option.bind_eq_bind, Option.bind_some, hframe, Option.pure_def]

/-- The next step of a call leads to a world and to a stage of the call, and changes nothing else. -/
def Passes (crew : Crew β) (thread : ℕ) (call : Call) (below : List Frame) (world : World β)
    (stage : Stage) : Prop :=
  crew.step thread =
    some { world, agendas := crew.agendas.set thread (.call { call with stage } :: below) }

/-- What a call does that asks its guard, and one that reports a rejection. -/
structure Asking (crew : Crew β) (thread : ℕ) (call : Call) (below : List Frame) (guard : Guard) :
    Prop where
  /-- A new content is admitted to the slot or is not. -/
  asks : ∀ obj errand, call.stage = .asking obj errand →
    crew.Passes thread call below (crew.world.questioned thread guard obj)
      (if guard.accepts (crew.world.facts obj) then .calling (.locking errand) else .rejecting obj)
  rejects : ∀ obj, call.stage = .rejecting obj →
    crew.Passes thread call below (crew.world.record thread (.rejected obj))
      (.finished (.rejected obj))
  /-- The content of a cell that is to be frozen is accepted or is not. -/
  vets : ∀ obj, call.stage = .vetting obj →
    crew.Passes thread call below (crew.world.questioned thread guard obj)
      (if guard.accepts (crew.world.facts obj) then .releasing obj .done else .refusing obj)
  refuses : ∀ obj, call.stage = .refusing obj →
    crew.Passes thread call below (crew.world.record thread (.rejected obj))
      (.releasing obj (.rejected obj))

theorem Sound.asking (hsound : crew.Sound) (htraced : crew.world.traced = true)
    (hagenda : crew.agendas[thread]? = some (.call call :: below))
    (hcell : crew.world.cell? call.cell = some cell) : crew.Asking thread call below cell.guard := by
  constructor
  case asks =>
    intro obj errand hstage
    have hstep : call.stage.step cell.kind cell.guard call.action crew.world.facts crew.world.shape
        cell.slot = some (cell.slot, if cell.guard.accepts (crew.world.facts obj)
          then .calling (.locking errand) else .rejecting obj, some (.ask obj)) := by
      rw [hstage, Stage.step]
      split <;> rfl
    rw [Passes, ← World.ask_eq htraced]
    exact hsound.step_past hagenda hcell hstep rfl
  case rejects =>
    intro obj hstage
    have hstep : call.stage.step cell.kind cell.guard call.action crew.world.facts crew.world.shape
        cell.slot = some (cell.slot, .finished (.rejected obj), some (.reject obj)) := by
      rw [hstage, Stage.step]
    rw [Passes, ← World.trace_eq htraced]
    exact hsound.step_past hagenda hcell hstep rfl
  case vets =>
    intro obj hstage
    have hstep : call.stage.step cell.kind cell.guard call.action crew.world.facts crew.world.shape
        cell.slot = some (cell.slot, if cell.guard.accepts (crew.world.facts obj)
          then .releasing obj .done else .refusing obj, some (.ask obj)) := by
      rw [hstage, Stage.step]
      split <;> rfl
    rw [Passes, ← World.ask_eq htraced]
    exact hsound.step_past hagenda hcell hstep rfl
  case refuses =>
    intro obj hstage
    have hstep : call.stage.step cell.kind cell.guard call.action crew.world.facts crew.world.shape
        cell.slot = some (cell.slot, .releasing obj (.rejected obj), some (.reject obj)) := by
      rw [hstage, Stage.step]
    rw [Passes, ← World.trace_eq htraced]
    exact hsound.step_past hagenda hcell hstep rfl

end Crew

/-! ## Whole calls -/

/-- How a call ends that was to store something and has made its steps from these stages. -/
inductive Action.Screened (kind : CellKind) (new : Option ObjectId) (record : List Stage) :
    Outcome → Prop where
  /-- The guard was asked, and has rejected it; units were neither acquired nor released, and
  nothing was stored. -/
  | rejected {obj : ObjectId} (hkind : kind = .atomic) (hnew : new = some obj)
      (hstored : storedIn record = false) (heffects : effectsOf record = [.ask obj, .reject obj]) :
      Screened kind new record (.rejected obj)
  /-- The guard of an atomic cell was asked, if there was anything to ask about, and nothing was
  rejected.  All else are units that were acquired or released, and the report of a wait. -/
  | admitted {outcome : Outcome} (deals waits : List Effect)
      (hadmitted : ∀ obj, outcome ≠ .rejected obj) (hwaits : Effect.Waits (storedIn record) waits)
      (heffects : effectsOf record = kind.questions new ++ deals)
      (hdeals : ∀ effect ∈ deals, effect.deals = true ∨ effect ∈ waits) :
      Screened kind new record outcome

theorem Action.Exchanged.screened {kind : CellKind} {action : Action}
    {expected : Option (Option ObjectId)} {new : Option ObjectId} {observe : Bool}
    {record : List Stage} {outcome : Outcome}
    (hexchanged : action.Exchanged kind expected new observe record outcome) :
    Screened kind new record outcome := by
  cases hexchanged with
  | rejected hkind hnew hstored heffects => exact .rejected hkind hnew hstored heffects
  | settled seen waits hstored hwaits heffects =>
    rw [List.append_assoc, List.append_assoc] at heffects
    refine .admitted _ waits (action.settled_ne_rejected _) hwaits heffects fun effect hmem => ?_
    simp only [List.mem_append] at hmem
    rcases hmem with hacquired | hwaited | hreleased
    · obtain ⟨unit, -, rfl⟩ := List.mem_map.mp hacquired
      exact .inl rfl
    · exact .inr hwaited
    · obtain ⟨unit, -, rfl⟩ := List.mem_map.mp hreleased
      exact .inl rfl

/-! ## Operations that ask when they begin -/

namespace World

/-- What operations begin with, and end with, that share a reference or try to. -/
structure Screens (world : World β) (thread : ℕ) (given : GuardArg) (guard : Guard) (value : Arg)
    (unit : Option ObjectId) : Prop where
  /-- A check answers what the guard does. -/
  checks : (Operation.check value given).start thread world =
    (world.consulted thread guard unit, .tidy [] (.flag (guard.admits world.facts unit)))
  /-- What is rejected is neither shared nor made the content of a new cell. -/
  refused : ∀ obj, unit = some obj → guard.accepts (world.facts obj) = false →
    (Operation.ensure value given).start thread world =
        (world.refused thread guard obj, .tidy [] (.fault (.unshareable obj))) ∧
      ∀ name source, world.cell? name = none →
        (Operation.newCell (some name) given value (some (some .atomic)) (some .value)
          source).start thread world =
            (world.refused thread guard obj, .tidy [] (.fault (.unshareable obj)))
  /-- What is admitted is. -/
  admitted : guard.admits world.facts unit = true →
    (Operation.ensure value given).start thread world =
        (world.consulted thread guard unit, .tidy [] .ok) ∧
      ∀ name source, world.cell? name = none →
        (Operation.newCell (some name) given value (some (some .atomic)) (some .value)
          source).start thread world =
            (((world.consulted thread guard unit).acquireAll thread unit.toList).addCell name
              { kind := .atomic, guard, slot := { content := unit } }, .tidy [] .ok)

theorem screens {world : World β} {given : GuardArg} {guard : Guard} {value : Arg}
    {unit : Option ObjectId} (htraced : world.traced = true)
    (hvalue : world.meaning? value = some unit) (hgiven : given.guard? = some guard) (thread : ℕ) :
    world.Screens thread given guard value unit where
  checks := Operation.start_check htraced hvalue hgiven thread
  refused _ hobj hrefuses :=
    ⟨Operation.start_ensure_refused htraced hvalue hgiven hobj hrefuses thread,
      fun _ _ hfree =>
        Operation.start_newCell_refused htraced hvalue hgiven hfree hobj hrefuses thread⟩
  admitted hadmits :=
    ⟨Operation.start_ensure_admitted htraced hvalue hgiven hadmits thread,
      fun _ _ hfree =>
        Operation.start_newCell_admitted htraced hvalue hgiven hfree hadmits thread⟩

/-- The report and the error name the type and the object. -/
theorem reports_rejection {world : World β} {obj : ObjectId} {object : Object β}
    (hobject : world.object? obj = some object) (hlive : object.destroyed = false) :
    (Event.rejected obj).trace? world = some (.object [
        ("level", .text "DEBUG"), ("message", .text "rejected publication of a mutable object"),
        ("type_name", .text (Resident.typeName β)), ("address", .text object.name)]) ∧
      (Fault.unshareable obj).document world = .object [
        ("error", .text "InvalidMutabilityError"), ("object", .text object.name),
        ("type_name", .text (Resident.typeName β)),
        ("message", .text (Fault.message (Resident.typeName β)))] := by
  simp [Event.trace?, World.addressName, Fault.document, World.objectName, Fault.kind, hobject,
    hlive]

end World

namespace Crew

variable {crew : Crew β}

/-- Rejections, wherever they come from. -/
structure Selective (crew : Crew β) : Prop where
  /-- Checks, and attempts to share something or to make a cell of it. -/
  starts : ∀ thread given guard value unit, given.guard? = some guard →
    crew.world.meaning? value = some unit →
    crew.world.Screens thread given guard value unit
  /-- The steps of calls that ask guards. -/
  steps : ∀ thread call below cell, crew.agendas[thread]? = some (.call call :: below) →
    crew.world.cell? call.cell = some cell → crew.Asking thread call below cell.guard
  /-- Calls that are to store something, whatever all threads do from their first steps on. -/
  calls : ∀ thread call below cell expected new observe,
    crew.agendas[thread]? = some (.call call :: below) →
    crew.world.cell? call.cell = some cell → call.stage = call.action.opening cell.kind →
    call.action.Exchange expected new observe →
    crew.EndsAs (Action.Screened cell.kind new) thread call below
  /-- Operations that offer an atomic cell something, whatever it holds and whatever is expected. -/
  offers : crew.Ended → ∀ name cell verb new expected target fresh,
    crew.world.cell? name = some cell → cell.kind = .atomic → Verb.offers verb = true →
    crew.world.meaning? new = some fresh →
    (Operation.comparing .atomic verb = some .byHandle →
      (crew.world.meaning? expected).isSome = true) →
    (Operation.onCell (some name) verb new expected target).Offers crew.world cell.guard fresh
  /-- Freezing, which asks about the content. -/
  freezes : crew.Ended → ∀ name cell, crew.world.cell? name = some cell → cell.kind = .freezable →
    Operation.Freezes crew.world name cell.guard cell.slot.content
  /-- Reports and errors are about what was rejected. -/
  reports : ∀ obj object, crew.world.object? obj = some object → object.destroyed = false →
    (Event.rejected obj).trace? crew.world = some (.object [
        ("level", .text "DEBUG"), ("message", .text "rejected publication of a mutable object"),
        ("type_name", .text (Resident.typeName β)), ("address", .text object.name)]) ∧
      (Fault.unshareable obj).document crew.world = .object [
        ("error", .text "InvalidMutabilityError"), ("object", .text object.name),
        ("type_name", .text (Resident.typeName β)),
        ("message", .text (Fault.message (Resident.typeName β)))]
  /-- Errors are equal if and only if they are about the same object. -/
  errors : ∀ thread left right first second,
    crew.world.meaning? (.named left) = some (some first) →
    crew.world.meaning? (.named right) = some (some second) →
    Guard.standard.accepts (crew.world.facts first) = false →
    Guard.standard.accepts (crew.world.facts second) = false →
    (Operation.compareErrors (some left) (some right)).start thread crew.world =
      ((crew.world.refused thread .standard first).refused thread .standard second,
        .tidy [] (.errors (first == second) true))

theorem Sound.selective [Restoring β] [Reticent β] (hsound : crew.Sound)
    (htraced : crew.world.traced = true) : crew.Selective where
  starts thread given guard value unit hgiven hvalue :=
    World.screens htraced hvalue hgiven thread
  steps thread call below cell hagenda hcell := hsound.asking htraced hagenda hcell
  calls thread call below cell expected new observe hagenda hcell hopening hexchange :=
    (hsound.exchanged hagenda hcell hopening hexchange).mono fun _ _ hexchanged =>
      hexchanged.screened
  offers hended name cell verb new expected target fresh hcell hkind hoffers hnew hexpected := by
    have hworld := hsound.world
    rw [hended.stakes] at hworld
    exact Operation.offers_onCell hworld htraced hcell hkind hoffers hnew hexpected target
  freezes hended name cell hcell hkind := by
    have hworld := hsound.world
    rw [hended.stakes] at hworld
    exact Operation.freezes_cell hworld hcell hkind
  reports obj object hobject hlive := World.reports_rejection hobject hlive
  errors thread left right first second hleft hright hfirst hsecond :=
    Operation.start_compareErrors htraced hleft hright hfirst hsecond thread

/-- However threads that perform ordinary operations interleave, guards are asked about what is
offered and about nothing else, and what they reject leaves nothing behind but a report. -/
theorem run_selective [Restoring β] [Reticent β] {programs : List (List Operation)}
    (hordinary : ∀ ops ∈ programs, Operation.ordinaryAll ops = true) (schedule : List ℕ) :
    ((start programs : Crew β).run schedule).Selective :=
  have hsound : (start programs : Crew β).Sound := start_sound hordinary
  (hsound.run schedule).selective (hsound.traced_run rfl schedule)

/-- Two threads offer a cell what its guard rejects, in vain. -/
def intrusion : List (List Operation) :=
  [[.alloc (some "a") (some (.int 1)) (some .frozen) [] [],
    .newCell (some "c") .absent (.named "a") (some (some .atomic)) (some .value) none,
    .alloc (some "b") (some (.int 2)) (some .mutable) [] [],
    .onCell (some "c") .compareAndSwap (.named "b") .empty none],
   [.onCell (some "c") .set (.named "b") .empty none]]

/-- The second thread goes first from the moment on that the first one is about to ask. -/
def intruding : List ℕ :=
  List.replicate 7 0 ++ List.replicate 8 1 ++ List.replicate 8 0

theorem run_selective_intrusion : (∀ ops ∈ intrusion, Operation.ordinaryAll ops = true) ∧
    ((((start intrusion : Crew Staged).run (intruding.take 7)).callAt? 0 1).map (·.stage)) =
      some (.asking 1 (.exchange (some none) (some 1) true)) ∧
    ((start intrusion : Crew Staged).run intruding).Ended ∧
      ((start intrusion : Crew Staged).run intruding).world.register? "c" =
        some { content := some 0, version := 0 } ∧
      ((start intrusion : Crew Staged).run (intruding.take 7)).Selective ∧
        ((start intrusion : Crew Staged).run intruding).Selective :=
  ⟨by decide, by decide +kernel, by decide +kernel, by decide +kernel,
    run_selective (by decide) (intruding.take 7), run_selective (by decide) intruding⟩

end Crew

end SharedCell
