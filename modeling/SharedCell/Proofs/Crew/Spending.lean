import Mathlib
import SharedCell.Proofs.Agenda.LoggedUnits
import SharedCell.Proofs.Crew.Moments

/-!
# Units that operations deal in

Nothing that works on a cell acquires or releases a unit more than it must.  A call that nobody
comes in between deals, according to the log, in the units of its line of the table, in this order:
never in more while it is under way, and in all of them once it has its outcome, unless the guard
has rejected what it was to store.  Operations that make a cell acquire a unit on its value if they
succeed, those that consume a cell deal in none, and a cell that is dropped releases the unit that
it has.
-/

namespace SharedCell

/-! ## What is recorded of a call -/

instance : DecidablePred Stage.Past
  | .asking .. | .calling _ => isFalse id
  | .rejecting _ | .writing .. | .vetting _ | .refusing _ | .releasing .. | .finished _ =>
      isTrue trivial

namespace Moment

/-- Nobody replaces the content before the slot is done with the call. -/
def Uncrossed (moments : List Moment) : Prop :=
  ∀ moment ∈ moments, moment.own = false → ¬ moment.stage.Past → moment.later = moment.register

instance (moments : List Moment) : Decidable (Uncrossed moments) :=
  inferInstanceAs (Decidable (∀ moment ∈ moments,
    moment.own = false → ¬ moment.stage.Past → moment.later = moment.register))

/-- The units that a call has dealt in. -/
def deals (moments : List Moment) : List Effect :=
  (effects moments).filter Effect.deals

theorem deals_append (first second : List Moment) :
    deals (first ++ second) = deals first ++ deals second := by
  rw [deals, effects_append, List.filter_append, deals, deals]

theorem deals_own (stage : Stage) (waits : Bool) (register later : Register) :
    deals [⟨stage, true, waits, register, later⟩] = stage.effect?.toList.filter Effect.deals := by
  rw [deals, effects_own]

theorem deals_other (stage : Stage) (waits : Bool) (register later : Register) :
    deals [⟨stage, false, waits, register, later⟩] = [] := rfl

theorem uncrossed_append {first second : List Moment} (huncrossed : Uncrossed (first ++ second)) :
    Uncrossed first ∧ Uncrossed second :=
  List.forall_mem_append.mp huncrossed

end Moment

open Moment

namespace Crew

variable {β : Type} [Resident β] {crew next : Crew β} {thread other : ℕ} {call : Call}
  {below : List Frame}

/-- The units that the call at a depth deals in with the next step of a thread, according to the
log.  It is the call's own step if the call is on top of the thread's agenda. -/
def spent (crew : Crew β) (thread depth other : ℕ) : List Effect :=
  match crew.step other, crew.moment? thread depth other with
  | some next, some moment => if moment.own then crew.world.dealt next.world else []
  | _, _ => []

/-- The units that the call deals in with the steps of a schedule. -/
def spending (thread depth : ℕ) : Crew β → List ℕ → List Effect
  | _, [] => []
  | crew, other :: schedule => crew.spent thread depth other ++
      spending thread depth ((crew.step other).getD crew) schedule

/-- A step that is the call's own logs the effect of the call. -/
theorem spent_eq (crew : Crew β) (thread depth other : ℕ) :
    crew.spent thread depth other = deals (crew.moment? thread depth other).toList := by
  unfold spent
  split
  · rename_i next moment hstep hmoment
    rw [hmoment, Option.toList_some]
    obtain ⟨stage, own, waits, register, later⟩ := moment
    cases own with
    | false => rw [deals_other, if_neg Bool.false_ne_true]
    | true =>
      obtain ⟨rfl, call, below, hagenda, hstage⟩ := moment?_own hmoment rfl
      obtain ⟨agenda, world, frames, hfound, hframe, rfl⟩ := step_eq_some hstep
      obtain rfl := Option.some.inj (hagenda.symm.trans hfound)
      obtain ⟨⟨after, opened⟩, hactive, hresult⟩ := Option.map_eq_some_iff.mp hframe
      obtain ⟨rfl, -⟩ := Prod.mk.inj hresult
      rw [if_pos rfl, (Call.deals_step hactive).dealt, deals_own, ← hstage]
  · rename_i hnone
    cases hmoment : crew.moment? thread depth other with
    | none => rfl
    | some moment =>
      cases hstep : crew.step other with
      | none => rw [moment?_none hstep] at hmoment; cases hmoment
      | some next => exact (hnone next moment hstep hmoment).elim

/-- The log tells what a call deals in. -/
theorem spending_eq (crew : Crew β) (thread depth : ℕ) (schedule : List ℕ) :
    crew.spending thread depth schedule = deals (crew.moments thread depth schedule) := by
  induction schedule generalizing crew with
  | nil => rfl
  | cons other schedule ih => rw [spending, moments, deals_append, spent_eq, ih]

/-! ## Calls -/

/-- A call that nobody has come in between, with what it has dealt in, as long as it takes. -/
def Thrifty (kind : CellKind) (action : Action) (start register : Register) (record : List Moment)
    (stage : Stage) : Prop :=
  Uncrossed record → stage.Thrifty kind action start register (deals record) ∧
    turns record + stage.way register ≤ 15 + rounds record

theorem sustained_thrifty (kind : CellKind) (action : Action) (start : Register) :
    Sustained action (fun stage => ∃ outcome, stage = .finished outcome)
      (Thrifty kind action start) where
  finished outcome := ⟨outcome, rfl⟩
  own other guard facts shape slot next stage later effect record hlast hthrifty hstep := by
    intro huncrossed
    obtain ⟨hdeals, hway⟩ := hthrifty (uncrossed_append huncrossed).1
    constructor
    · rw [deals_append, deals_own, ← Stage.effect_step hstep]
      exact hdeals.step hstep
    · have hnearer := Stage.way_step hstep
      have hturn : turns [⟨stage, true, stage.polls slot, slot.register, next.register⟩] = 1 := rfl
      have hround : rounds [⟨stage, true, stage.polls slot, slot.register, next.register⟩] =
          (stage.polls slot).toNat := by
        cases hpolls : stage.polls slot <;> rfl
      rw [turns_append, rounds_append]
      omega
  others register turned record stage hlast hturns hthrifty := by
    intro huncrossed
    obtain ⟨hbefore, hlatest⟩ := uncrossed_append huncrossed
    obtain ⟨hdeals, hway⟩ := hthrifty hbefore
    have hturned : ¬ stage.Past → turned = register :=
      hlatest _ List.mem_cons_self rfl
    constructor
    · rw [deals_append, deals_other, List.append_nil]
      exact hdeals.turn hturned
    · have hidle : turns [⟨stage, false, false, register, turned⟩] = 0 := rfl
      have hround : rounds [⟨stage, false, false, register, turned⟩] = 0 := rfl
      rw [turns_append, rounds_append, Stage.way_turn hturned]
      omega

/-- What a call comes to that begins with this content of its cell: it is under way at the end of a
schedule and has dealt in no more than it should, or it has its outcome and has dealt in all that it
should.  It takes few steps, looks at pins in vain apart. -/
def Spends (crew : Crew β) (thread : ℕ) (call : Call) (below : List Frame) (kind : CellKind)
    (content : Option ObjectId) (schedule : List ℕ) : Prop :=
  (∃ above stage, (∀ outcome, stage ≠ .finished outcome) ∧
    (crew.run schedule).agendas[thread]? = some (above ++ .call { call with stage } :: below) ∧
    crew.spending thread below.length schedule <+: call.action.dealings content ∧
    turns (crew.moments thread below.length schedule) <
      14 + rounds (crew.moments thread below.length schedule)) ∨
  ∃ early late above outcome, schedule = early ++ late ∧
    (crew.run early).agendas[thread]? =
      some (above ++ .call { call with stage := .finished outcome } :: below) ∧
    call.action.Settled kind content (crew.spending thread below.length early) outcome ∧
    turns (crew.moments thread below.length early) ≤
      14 + rounds (crew.moments thread below.length early)

theorem Sound.spends [Lawful β] (hsound : crew.Sound) {cell : Cell}
    (hagenda : crew.agendas[thread]? = some (.call call :: below))
    (hcell : crew.world.cell? call.cell = some cell)
    (hopening : call.stage = call.action.opening cell.kind) {schedule : List ℕ}
    (huncrossed : Uncrossed (crew.moments thread below.length schedule)) :
    crew.Spends thread call below cell.kind cell.slot.content schedule := by
  have hregister := World.register?_of_cell hcell
  have hat : crew.At (Thrifty cell.kind call.action cell.slot.register) thread call below [] := by
    refine ⟨[], call.stage, cell.slot.register, hagenda, hregister, fun _ => ?_⟩
    rw [hopening]
    exact ⟨Stage.thrifty_opening _ _ _, (Nat.zero_add _).trans_le (Stage.way_opening _ _ _)⟩
  rcases hsound.sustained (sustained_thrifty _ _ _) hat schedule with
    ⟨above, stage, register, hlater, -, hthrifty, hunder⟩ |
    ⟨early, late, rfl, above, stage, register, hlater, -, hthrifty, outcome, rfl⟩
  · obtain ⟨hdeals, hway⟩ := hthrifty huncrossed
    have hfar := Stage.two_le_way (fun outcome heq => hunder ⟨outcome, heq⟩) register
    refine .inl ⟨above, stage, fun outcome heq => hunder ⟨outcome, heq⟩, hlater, ?_, ?_⟩
    · rw [spending_eq]
      exact hdeals.le
    · rw [List.nil_append] at hway
      omega
  · rw [moments_append] at huncrossed
    obtain ⟨hdeals, hway⟩ := hthrifty (uncrossed_append huncrossed).1
    refine .inr ⟨early, late, above, outcome, rfl, hlater, ?_, ?_⟩
    · rw [spending_eq]
      exact hdeals.settled
    · have hone : (Stage.finished outcome).way register = 1 := rfl
      rw [List.nil_append] at hway
      omega

/-! ## All operations on cells -/

/-- What is acquired and released for cells. -/
structure Frugal (crew : Crew β) : Prop where
  /-- By calls, whatever all threads do as long as nobody replaces the content meanwhile. -/
  calls : ∀ thread call below cell, crew.agendas[thread]? = some (.call call :: below) →
    crew.world.cell? call.cell = some cell → call.stage = call.action.opening cell.kind →
    ∀ schedule, Uncrossed (crew.moments thread below.length schedule) →
      crew.Spends thread call below cell.kind cell.slot.content schedule
  /-- By the operations that call a cell, before the call begins. -/
  begins : ∀ thread op, Operation.makesCall op = true →
    crew.world.Deals (op.start thread crew.world).1 [] ∧
      (op.start thread crew.world).2.Opening (op.start thread crew.world).1
  /-- By the making of a cell, whether it succeeds or not. -/
  makes : ∀ thread name given value kind origin source,
    let started := (Operation.newCell name given value kind origin source).start thread crew.world
    crew.world.Deals started.1
      (Operation.outlay ((crew.world.meaning? value).getD none) origin started.2)
  /-- By the consumption of a cell, whose unit goes to the caller. -/
  consumes : ∀ thread name cell target, crew.world.cell? name = some cell → cell.idle = true →
    cell.kind ≠ .freezable →
    let started := (Operation.intoInner (some name) target).start thread crew.world
    crew.world.Deals started.1 [] ∧
      started.2 = .tidy (Operation.delivery target cell.slot.content) (.unit cell.slot.content)
  /-- A cell that is dropped is to release its unit. -/
  drops : ∀ thread name cell, crew.world.cell? name = some cell → cell.idle = true →
    let started := (Operation.dropCell (some name)).start thread crew.world
    crew.world.Deals started.1 [] ∧
      started.2 = .tidy (cell.slot.content.toList.map .release) .ok
  /-- The release of a unit that is still to be released. -/
  releases : ∀ thread unit chores reply below next,
    crew.agendas[thread]? = some (.tidy (.release unit :: chores) reply :: below) →
    crew.step thread = some next → crew.world.Deals next.world [.release unit] ∧
      ∃ above, next.agendas[thread]? = some (above ++ .tidy chores reply :: below)

theorem Sound.frugal [Lawful β] (hsound : crew.Sound) : crew.Frugal where
  calls thread call below cell hagenda hcell hopening schedule huncrossed :=
    hsound.spends hagenda hcell hopening huncrossed
  begins thread op hcalls := by
    refine ⟨Operation.deals_start_call hcalls thread crew.world, ?_⟩
    refine Operation.opening_start ?_ thread crew.world
    cases op <;> first | rfl | cases hcalls
  makes thread name given value kind origin source :=
    Operation.deals_start_newCell name given value kind origin source thread crew.world
  consumes thread name cell target hcell hidle hkind := by
    intro started
    have hstarted : started = _ :=
      Operation.start_intoInner_idle hcell hidle hkind target thread
    rw [hstarted]
    exact ⟨.of_log rfl, rfl⟩
  drops thread name cell hcell hidle := by
    intro started
    have hstarted : started = _ := Operation.start_dropCell_idle hcell hidle thread
    rw [hstarted]
    exact ⟨.of_log rfl, rfl⟩
  releases thread unit chores reply below next hagenda hstep := by
    obtain ⟨agenda, world, later, hfound, hframe, rfl⟩ := step_eq_some hstep
    obtain rfl := Option.some.inj (hagenda.symm.trans hfound)
    obtain ⟨rfl, rfl⟩ := Prod.mk.inj (Option.some.inj hframe)
    refine ⟨crew.world.deals_letGo thread unit, (crew.world.letGo thread unit).2, ?_⟩
    exact List.getElem?_set_self (List.getElem?_eq_some_iff.mp hagenda).1

/-- However threads that perform ordinary operations interleave, no operation on a cell acquires or
releases a unit more than it must. -/
theorem run_frugal [Lawful β] {programs : List (List Operation)}
    (hordinary : ∀ ops ∈ programs, Operation.ordinaryAll ops = true) (schedule : List ℕ) :
    ((start programs : Crew β).run schedule).Frugal :=
  ((start_sound hordinary : (start programs : Crew β).Sound).run schedule).frugal

/-- The first thread puts one object in the place of another one while the second thread reads. -/
def refilling : List (List Operation) :=
  [[.alloc (some "a") (some (.int 1)) (some .frozen) [] [],
      .alloc (some "b") (some (.int 2)) (some .frozen) [] [],
      .newCell (some "c") .absent (.named "a") (some (some .atomic)) (some .value) none,
      .onCell (some "c") .compareAndSet (.named "b") (.named "a") none],
    [.onCell (some "c") .get .empty .empty none]]

/-- The reader has a unit on the old content when it is replaced, and gives it back later. -/
def refill : List ℕ :=
  List.replicate 7 1 ++ List.replicate 8 0 ++ List.replicate 8 1 ++ List.replicate 8 0

/-- The units that the reader deals in are not those of the call. -/
theorem run_frugal_refilling : (∀ ops ∈ refilling, Operation.ordinaryAll ops = true) ∧
    (((start refilling : Crew Staged).run (List.replicate 7 0)).callAt? 0 1).map (·.stage) =
      some (Action.opening .atomic (.compareAndSet (some 0) (some 1))) ∧
    Uncrossed (((start refilling : Crew Staged).run (List.replicate 7 0)).moments 0 1 refill) ∧
    ((start refilling : Crew Staged).run (List.replicate 7 0)).spending 0 1 refill =
      [.acquire 1, .release 0] ∧
    ((start refilling : Crew Staged).run (List.replicate 7 0)).Frugal :=
  ⟨by decide, by decide +kernel, by decide +kernel, by decide +kernel,
    run_frugal (by decide) (List.replicate 7 0)⟩

end Crew

end SharedCell
