import Mathlib
import SharedCell.Proofs.Agenda.FramesAbove
import SharedCell.Proofs.Crew.Access
import SharedCell.Proofs.Crew.Progress
import SharedCell.Proofs.Solo.Writes

/-!
# One call beside others

What becomes of a call while other threads go on, and while scripts are performed on top of it.  The
cell stays where it is as long as the call is under way, and its content is replaced by calls only
that hold the lock.  So a call that holds the lock finds the content as it has left it, and what
each of its own steps preserves, whatever others store before, holds until it has its outcome.
-/

namespace SharedCell

variable {β : Type} [Resident β]

/-! ## Steps that store -/

namespace Stage

variable {kind : CellKind} {guard : Guard} {action : Action} {facts : ObjectId → Facts}
  {shape : Text.Layout → ObjectId → Text.Shape} {slot next : Slot} {stage later : Stage}
  {effect : Option Effect}

theorem exists_storing (hstores : stage.phase.stores = true) :
    ∃ new, stage = .calling (.storing new) := by
  cases stage with
  | calling phase =>
    cases phase with
    | storing new => exact ⟨new, rfl⟩
    | _ => cases hstores
  | _ => cases hstores

/-- What a call stores is in the slot after the step. -/
theorem register_stores (hstores : stage.phase.stores = true)
    (hstep : stage.step kind guard action facts shape slot = some (next, later, effect)) :
    ∃ new, next.register = slot.register.after (some new) := by
  obtain ⟨new, rfl⟩ := exists_storing hstores
  simp only [Stage.step, Phase.step, Option.map_some, Option.some.injEq, Prod.mk.injEq] at hstep
  obtain ⟨rfl, -⟩ := hstep
  exact ⟨new, rfl⟩

end Stage

/-! ## What others do to the cell of a call -/

/-- What others make of the register of a cell while a call on it is under way. -/
def Register.Turns (held : Bool) (register later : Register) : Prop :=
  later = register ∨ held = false ∧ ∃ new, later = register.after (some new)

omit [Resident β] in
/-- A copy does not take the place of a cell that is in use. -/
theorem Call.register?_settle_used {world : World β} {name : String} {cell : Cell} (active : Call)
    (outcome : Outcome) (hcell : world.cell? name = some cell) (hused : cell.idle = false) :
    (active.settle world outcome).1.register? name = world.register? name := by
  rcases active.register?_settle world outcome name with
    hsame | ⟨content, haction, hcopy, rfl, -⟩
  · exact hsame
  · have hkept : (active.settle world (.unit content)).1 = world := by
      simp only [settle, haction, hcopy, hcell, hused]
      rfl
    rw [hkept]

namespace World.Sound

variable {world next : World β} {stakes after : Stakes} {call : Call} {name : String}

theorem cell_of_call (hsound : world.Sound stakes) (hcall : call ∈ stakes.calls) :
    ∃ cell, world.cell? call.cell = some cell ∧
      cell.Sound (stakes.visited.count call.cell) (stakes.callsOn call.cell) world.facts := by
  obtain ⟨cell, hcell⟩ := hsound.housed.present _ (stakes.mem_visited_of_call hcall)
  exact ⟨cell, lookup_of_mem hsound.housed.names hcell, hsound.housed.sound _ _ hcell⟩

/-- A cell that a call is made on is in use. -/
theorem not_idle (hsound : world.Sound stakes) (hcall : call ∈ stakes.calls) {cell : Cell}
    (hcell : world.cell? call.cell = some cell) : cell.idle = false := by
  obtain ⟨found, hfound, hcellSound⟩ := hsound.cell_of_call hcall
  obtain rfl := Option.some.inj (hfound.symm.trans hcell)
  have hvisited := Multiset.count_pos.mpr (stakes.mem_visited_of_call hcall)
  have husers := hcellSound.users
  cases hout : found.out
  · simp only [hout, Bool.toNat_false] at husers
    simp only [Cell.idle, hout, Bool.not_false, Bool.and_true, beq_eq_false_iff_ne]
    omega
  · simp [Cell.idle, hout]

/-- Of two calls on a cell, one at most holds the lock. -/
theorem not_holdsLock {other : Call} {others : Stakes} (hsound : world.Sound stakes)
    (hstakes : stakes = .making other + (.making call + others)) (hname : other.cell = call.cell)
    (hholds : other.stage.phase.holdsLock = true) : call.stage.phase.holdsLock = false := by
  have hmem : call ∈ stakes.calls := by simp [hstakes]
  obtain ⟨cell, -, hcellSound⟩ := hsound.cell_of_call hmem
  have hcalls : stakes.callsOn call.cell = other ::ₘ call ::ₘ others.callsOn call.cell := by
    rw [hstakes, Stakes.callsOn_add, Stakes.callsOn_add, Stakes.callsOn_making, ← hname,
      Stakes.callsOn_making]
    rfl
  have hruled := hcellSound.slot
  rw [hcalls, Multiset.map_cons, Multiset.map_cons] at hruled
  obtain ⟨listed, hlisted, hslot⟩ := hruled.cons
  refine hslot.alone hholds _ ?_
  rw [← Multiset.mem_coe, hlisted]
  exact Multiset.mem_cons_self _ _

end World.Sound

namespace Frame

variable {world next : World β} {total after : Stakes} {call : Call} {thread : ℕ}
  {agenda later : List Frame}

/-- A step of another frame finds the cell of a call and leaves it there, with the same content
unless it stores, which it does not while the call holds the lock. -/
theorem register?_beside (hstep : step thread world agenda = some (next, later))
    (hordinary : ∀ frame ∈ agenda, frame.ordinary = true) (hsound : world.Sound total)
    (hnext : next.Sound after) (hbefore : call ∈ total.calls) (hafter : call ∈ after.calls)
    (hother : ∀ other below, agenda = .call other :: below →
      ∃ others, total = .making other + (.making call + others)) :
    ∃ register turned, world.register? call.cell = some register ∧
      next.register? call.cell = some turned ∧
      register.Turns call.stage.phase.holdsLock turned := by
  obtain ⟨cell, hcell, -⟩ := hsound.cell_of_call hbefore
  obtain ⟨turned, hturned, -⟩ := hnext.cell_of_call hafter
  refine ⟨cell.slot.register, turned.slot.register, World.register?_of_cell hcell,
    World.register?_of_cell hturned, ?_⟩
  have hsame (hregister : next.register? call.cell = world.register? call.cell) :
      cell.slot.register.Turns call.stage.phase.holdsLock turned.slot.register := by
    rw [World.register?_of_cell hcell, World.register?_of_cell hturned] at hregister
    exact .inl (Option.some.inj hregister)
  rcases register?_step hordinary hstep call.cell with hregister | hwrites
  · exact hsame hregister
  cases hwrites with
  | stores other below hagenda hname hstores =>
    obtain ⟨others, htotal⟩ := hother other below hagenda
    have hholds : other.stage.phase.holdsLock = true := by
      obtain ⟨new, hstage⟩ := Stage.exists_storing hstores
      rw [hstage]
      rfl
    subst hagenda
    obtain ⟨⟨stepped, frames⟩, hactive, hresult⟩ := Option.map_eq_some_iff.mp hstep
    obtain ⟨rfl, rfl⟩ := Prod.mk.inj hresult
    rcases Call.step_cases hactive with
      ⟨outcome, hfinished, -, -⟩ | ⟨found, slot, stage, effect, hfound, hstage, rfl, rfl⟩
    · rw [hfinished] at hstores
      cases hstores
    · rw [hname] at hfound
      obtain rfl := Option.some.inj (hcell.symm.trans hfound)
      obtain ⟨new, hnew⟩ := Stage.register_stores hstores hstage
      have hwritten : (world.modifyCell other.cell ({ · with slot })).cell? call.cell =
          some { cell with slot } := hname ▸ World.cell?_modifyCell (hname ▸ hcell)
      rw [World.cell?, Call.cells_affect] at hturned
      obtain rfl := Option.some.inj (hwritten.symm.trans hturned)
      exact .inr ⟨hsound.not_holdsLock htotal hname hholds, new, hnew⟩
  | copies other below content hagenda hstage haction hcopy hregister =>
    subst hagenda
    obtain ⟨⟨stepped, frames⟩, hactive, hresult⟩ := Option.map_eq_some_iff.mp hstep
    obtain ⟨rfl, rfl⟩ := Prod.mk.inj hresult
    rcases Call.step_cases hactive with
      ⟨outcome, hfinished, rfl, rfl⟩ | ⟨found, slot, stage, effect, -, hnone, -, -⟩
    · exact hsame (other.register?_settle_used outcome hcell (hsound.not_idle hbefore hcell))
    · rw [hstage] at hnone
      cases hnone
  | starts op hop hrewrites =>
    rw [World.register?_of_cell hcell, World.register?_of_cell hturned] at hrewrites
    cases hrewrites

end Frame

namespace Crew

variable {crew next : Crew β} {thread other : ℕ} {above below : List Frame} {call : Call}

/-! ## Steps of others -/

/-- Another thread makes a step, or what is on top of the call does. -/
theorem Sound.step_beside [Lawful β] (hsound : crew.Sound)
    (hagenda : crew.agendas[thread]? = some (above ++ .call call :: below))
    (hstep : crew.step other = some next) (hother : other ≠ thread ∨ above ≠ []) :
    (∃ rest, next.agendas[thread]? = some (rest ++ .call call :: below)) ∧
      ∃ register turned, crew.world.register? call.cell = some register ∧
        next.world.register? call.cell = some turned ∧
        register.Turns call.stage.phase.holdsLock turned := by
  have hmem {some : Crew β} {rest : List Frame}
      (hplace : some.agendas[thread]? = Option.some (rest ++ .call call :: below)) :
      call ∈ some.stakes.calls :=
    Stakes.mem_calls_of_mem (List.mem_flatten.mpr ⟨_, List.mem_of_getElem? hplace, by simp⟩)
  obtain ⟨agenda, world, later, hfound, hframe, hnext⟩ := step_eq_some hstep
  have hordinary := hsound.ordinary_agenda (List.mem_of_getElem? hfound)
  have hkept : ∃ rest, next.agendas[thread]? = some (rest ++ .call call :: below) := by
    by_cases hsame : other = thread
    · subst hsame
      obtain rfl := Option.some.inj (hagenda.symm.trans hfound)
      have hnonempty := hother.resolve_left (not_not_intro rfl)
      rw [Frame.step_above other crew.world below hnonempty (Frame.inert_call call),
        Option.map_eq_some_iff] at hframe
      obtain ⟨⟨after, rest⟩, -, hresult⟩ := hframe
      obtain ⟨rfl, rfl⟩ := Prod.mk.inj hresult
      have hlt := (List.getElem?_eq_some_iff.mp hagenda).1
      exact ⟨rest, by rw [hnext, List.getElem?_set_self hlt]⟩
    · exact ⟨above, by rw [step_agenda_of_ne hstep hsame, hagenda]⟩
  obtain ⟨rest, hrest⟩ := hkept
  refine ⟨⟨rest, hrest⟩, ?_⟩
  obtain rfl : next.world = world := by rw [hnext]
  refine Frame.register?_beside hframe hordinary hsound.world (hsound.step hstep).world
    (hmem hagenda) (hmem hrest) ?_
  rintro active lower rfl
  by_cases hsame : other = thread
  · subst hsame
    have hagendas := Option.some.inj (hagenda.symm.trans hfound)
    obtain ⟨before, after, hplace, -, -, -⟩ := exists_place hagenda
    cases above with
    | nil => exact absurd rfl (hother.resolve_left (not_not_intro rfl))
    | cons top above =>
      rw [List.cons_append, List.cons.injEq] at hagendas
      obtain ⟨rfl, -⟩ := hagendas
      refine ⟨stakesOf above + stakesOf below + (stakesOf before.flatten + stakesOf after.flatten),
        ?_⟩
      rw [stakes, hplace]
      simp only [List.flatten_append, List.flatten_cons, stakesOf_append, stakesOf_cons,
        List.cons_append, Frame.stakes]
      abel
  · obtain ⟨others, hstakes⟩ := exists_apart hagenda hfound hsame
    refine ⟨stakesOf lower + (stakesOf above + stakesOf below) + others, ?_⟩
    rw [hstakes]
    simp only [stakesOf_append, stakesOf_cons, Frame.stakes]
    abel

/-! ## Steps of the call -/

/-- A call that has no outcome yet makes a step on its cell. -/
theorem Sound.step_own (hagenda : crew.agendas[thread]? = some (.call call :: below))
    (hstep : crew.step thread = some next) :
    (∃ outcome, call.stage = .finished outcome) ∨
      ∃ cell slot stage effect, crew.world.cell? call.cell = some cell ∧
        call.stage.step cell.kind cell.guard call.action crew.world.facts crew.world.shape
          cell.slot = some (slot, stage, effect) ∧
        next.world = (Call.affect (crew.world.modifyCell call.cell ({ · with slot })) thread
          cell.guard effect).1 ∧
        next.world.register? call.cell = some slot.register ∧
        ∃ above, next.agendas[thread]? = some (above ++ .call { call with stage } :: below) := by
  obtain ⟨agenda, world, later, hfound, hframe, rfl⟩ := step_eq_some hstep
  obtain rfl := Option.some.inj (hagenda.symm.trans hfound)
  obtain ⟨⟨after, frames⟩, hactive, hresult⟩ := Option.map_eq_some_iff.mp hframe
  obtain ⟨rfl, rfl⟩ := Prod.mk.inj hresult
  have hlt := (List.getElem?_eq_some_iff.mp hagenda).1
  rcases Call.step_cases hactive with
    ⟨outcome, hfinished, -, -⟩ | ⟨cell, slot, stage, effect, hcell, hstage, rfl, rfl⟩
  · exact .inl ⟨outcome, hfinished⟩
  · refine .inr ⟨cell, slot, stage, effect, hcell, hstage, rfl, ?_, ?_⟩
    · rw [World.register?_congr (Call.cells_affect _ thread cell.guard effect), World.register?,
        World.cell?_modifyCell hcell, Option.map_some]
    · refine ⟨(Call.affect (crew.world.modifyCell call.cell ({ · with slot })) thread cell.guard
        effect).2, ?_⟩
      rw [List.getElem?_set_self hlt, List.append_assoc, List.singleton_append]

/-- A step as a call sees it: it leaves the call alone, or the call has its outcome, or it takes the
call to its next stage. -/
theorem Sound.step_about [Lawful β] (hsound : crew.Sound) {register : Register}
    (hagenda : crew.agendas[thread]? = some (above ++ .call call :: below))
    (hregister : crew.world.register? call.cell = some register)
    (hstep : crew.step other = some next) :
    ((other ≠ thread ∨ above ≠ []) ∧ ∃ rest turned,
      next.agendas[thread]? = some (rest ++ .call call :: below) ∧
      next.world.register? call.cell = some turned ∧
      register.Turns call.stage.phase.holdsLock turned) ∨
    (other = thread ∧ above = [] ∧ ∃ outcome, call.stage = .finished outcome) ∨
    (other = thread ∧ above = [] ∧ ∃ (cell : Cell) (slot : Slot) (stage : Stage)
        (effect : Option Effect) (rest : List Frame), crew.world.cell? call.cell = some cell ∧
      call.stage.step cell.kind cell.guard call.action crew.world.facts crew.world.shape cell.slot =
        some (slot, stage, effect) ∧
      next.agendas[thread]? = some (rest ++ .call { call with stage } :: below) ∧
      next.world.register? call.cell = some slot.register) := by
  by_cases hother : other ≠ thread ∨ above ≠ []
  · obtain ⟨⟨rest, hrest⟩, found, turned, hfound, hturned, hturns⟩ :=
      hsound.step_beside hagenda hstep hother
    obtain rfl := Option.some.inj (hregister.symm.trans hfound)
    exact .inl ⟨hother, rest, turned, hrest, hturned, hturns⟩
  · simp only [not_or, not_not] at hother
    obtain ⟨rfl, rfl⟩ := hother
    rcases Sound.step_own hagenda hstep with
      hfinished | ⟨cell, slot, stage, effect, hcell, hstage, -, hnext, rest, hrest⟩
    · exact .inr (.inl ⟨rfl, rfl, hfinished⟩)
    · exact .inr (.inr ⟨rfl, rfl, cell, slot, stage, effect, rest, hcell, hstage, hrest, hnext⟩)

/-! ## Records -/

/-- The call on top of a thread's agenda, if it has so many frames below it. -/
def callAt? (crew : Crew β) (thread depth : ℕ) : Option Call :=
  match crew.agendas[thread]? with
  | some (.call call :: below) => if below.length = depth then some call else none
  | _ => none

/-- The stage from which the call at this depth makes the next step, if it is its turn. -/
def stage? (crew : Crew β) (thread depth next : ℕ) : Option Stage :=
  if next = thread ∧ (crew.step thread).isSome = true then
    (crew.callAt? thread depth).map (·.stage)
  else none

/-- The stages from which the call at this depth makes the steps of a schedule. -/
def stages (thread depth : ℕ) : Crew β → List ℕ → List Stage
  | _, [] => []
  | crew, next :: schedule => (crew.stage? thread depth next).toList ++
      stages thread depth ((crew.step next).getD crew) schedule

omit [Resident β] in
theorem callAt?_top (hagenda : crew.agendas[thread]? = some (.call call :: below)) :
    crew.callAt? thread below.length = some call := by
  rw [callAt?, hagenda]
  exact if_pos rfl

omit [Resident β] in
theorem callAt?_above (hagenda : crew.agendas[thread]? = some (above ++ .call call :: below))
    (hnonempty : above ≠ []) : crew.callAt? thread below.length = none := by
  rw [callAt?, hagenda]
  cases above with
  | nil => exact absurd rfl hnonempty
  | cons top above =>
    cases top with
    | call active => exact if_neg (by simp; omega)
    | _ => rfl

/-- It is not the call's turn, or the call has something on top of it. -/
theorem stage?_beside (hagenda : crew.agendas[thread]? = some (above ++ .call call :: below))
    (hother : other ≠ thread ∨ above ≠ []) : crew.stage? thread below.length other = none := by
  rw [stage?]
  split
  · rename_i hturn
    rw [callAt?_above hagenda (hother.resolve_left (not_not_intro hturn.1)), Option.map_none]
  · rfl

theorem stage?_own (hagenda : crew.agendas[thread]? = some (.call call :: below))
    (hstep : crew.step thread = some next) :
    crew.stage? thread below.length thread = some call.stage := by
  rw [stage?, if_pos ⟨rfl, by rw [hstep, Option.isSome_some]⟩, callAt?_top hagenda,
    Option.map_some]

theorem stage?_none (hstep : crew.step other = none) (depth : ℕ) :
    crew.stage? thread depth other = none := by
  rw [stage?]
  split
  · rename_i hturn
    obtain ⟨rfl, hsome⟩ := hturn
    rw [hstep] at hsome
    cases hsome
  · rfl

/-! ## The course of a call -/

/-- What every step keeps, unless it has ended, is kept up to the end of a schedule or up to the
step before which it has ended, with what is noted of all steps. -/
theorem Sound.followed [Lawful β] {α : Type} {note : Crew β → ℕ → Option α}
    {under ended : Crew β → List α → Prop} {record : List α} (hsound : crew.Sound)
    (notes : Crew β → List ℕ → List α) (hnil : ∀ crew, notes crew [] = [])
    (hcons : ∀ crew other schedule, notes crew (other :: schedule) =
      (note crew other).toList ++ notes ((crew.step other).getD crew) schedule)
    (hnone : ∀ crew other, crew.step other = none → note crew other = none)
    (hkept : ∀ crew next other record, crew.Sound → under crew record →
      crew.step other = some next →
        under next (record ++ (note crew other).toList) ∨ ended crew record)
    (hunder : under crew record) (schedule : List ℕ) :
    under (crew.run schedule) (record ++ notes crew schedule) ∨
      ∃ early late, schedule = early ++ late ∧
        ended (crew.run early) (record ++ notes crew early) := by
  induction schedule generalizing crew record with
  | nil =>
    rw [hnil, List.append_nil]
    exact .inl hunder
  | cons other schedule ih =>
    rw [Crew.run, hcons, ← List.append_assoc]
    cases hstep : crew.step other with
    | none =>
      rw [Option.getD_none, hnone crew other hstep, Option.toList_none, List.append_nil]
      refine (ih hsound hunder).imp id ?_
      rintro ⟨early, late, rfl, hended⟩
      refine ⟨other :: early, late, rfl, ?_⟩
      rwa [Crew.run, hcons, hstep, Option.getD_none, hnone crew other hstep, Option.toList_none,
        List.nil_append]
    | some next =>
      rw [Option.getD_some]
      rcases hkept crew next other record hsound hunder hstep with hnext | hended
      · refine (ih (hsound.step hstep) hnext).imp id ?_
        rintro ⟨early, late, rfl, hended⟩
        refine ⟨other :: early, late, rfl, ?_⟩
        rwa [Crew.run, hcons, hstep, Option.getD_some, ← List.append_assoc]
      · refine .inr ⟨[], other :: schedule, rfl, ?_⟩
        rwa [hnil, List.append_nil]

/-- A call is at a stage, and this is what its register and the record of its steps are like. -/
def At {α : Type} (property : Register → List α → Stage → Prop) (crew : Crew β) (thread : ℕ)
    (call : Call) (below : List Frame) (record : List α) : Prop :=
  ∃ above stage register,
    crew.agendas[thread]? = some (above ++ .call { call with stage } :: below) ∧
    crew.world.register? call.cell = some register ∧ property register record stage

/-- A call has its outcome, and this is what its register and the record of its steps are like. -/
def AtEnd (property : Register → List Stage → Stage → Prop) (crew : Crew β) (thread : ℕ)
    (call : Call) (below : List Frame) (record : List Stage) : Prop :=
  ∃ outcome register,
    crew.agendas[thread]? = some (.call { call with stage := .finished outcome } :: below) ∧
    crew.world.register? call.cell = some register ∧ property register record (.finished outcome)

/-- What the steps of a call preserve, and what others do not break by storing in its cell while it
does not hold the lock. -/
structure Preserved (action : Action) (property : Register → List Stage → Stage → Prop) : Prop where
  own : ∀ kind guard facts shape slot next stage later effect record,
    property slot.register record stage →
    Stage.step kind guard action facts shape slot stage = some (next, later, effect) →
      property next.register (record ++ [stage]) later
  others : ∀ register record stage new, stage.phase.holdsLock = false →
    property register record stage → property (register.after (some new)) record stage

variable {property : Register → List Stage → Stage → Prop} {record : List Stage}

theorem Preserved.turns {action : Action} (hpreserved : Preserved action property)
    {register turned : Register} {stage : Stage}
    (hturns : register.Turns stage.phase.holdsLock turned)
    (hproperty : property register record stage) : property turned record stage := by
  rcases hturns with rfl | ⟨hlock, new, rfl⟩
  · exact hproperty
  · exact hpreserved.others register record stage new hlock hproperty

/-- One step of any thread. -/
theorem Sound.at_step [Lawful β] (hsound : crew.Sound)
    (hpreserved : Preserved call.action property)
    (hat : crew.At property thread call below record) (hstep : crew.step other = some next) :
    next.At property thread call below
        (record ++ (crew.stage? thread below.length other).toList) ∨
      crew.AtEnd property thread call below record := by
  obtain ⟨above, stage, register, hagenda, hregister, hproperty⟩ := hat
  rcases hsound.step_about hagenda hregister hstep with
    ⟨hother, rest, turned, hrest, hturned, hturns⟩ | ⟨rfl, rfl, outcome, hfinished⟩ |
    ⟨rfl, rfl, cell, slot, later, effect, rest, hcell, hstage, hrest, hnext⟩
  · rw [stage?_beside hagenda hother, Option.toList_none, List.append_nil]
    exact .inl ⟨rest, stage, turned, hrest, hturned, hpreserved.turns hturns hproperty⟩
  · obtain rfl : stage = .finished outcome := hfinished
    exact .inr ⟨outcome, register, hagenda, hregister, hproperty⟩
  · obtain rfl := Option.some.inj (hregister.symm.trans (World.register?_of_cell hcell))
    rw [stage?_own hagenda hstep, Option.toList_some]
    exact .inl ⟨rest, later, slot.register, hrest, hnext,
      hpreserved.own _ _ _ _ _ _ _ _ _ _ hproperty hstage⟩

/-- However the steps of others fall between its own, what a call preserves holds until it has its
outcome. -/
theorem Sound.pursued [Lawful β] (hsound : crew.Sound)
    (hpreserved : Preserved call.action property)
    (hat : crew.At property thread call below record) (schedule : List ℕ) :
    (crew.run schedule).At property thread call below
        (record ++ crew.stages thread below.length schedule) ∨
      ∃ early late, schedule = early ++ late ∧
        (crew.run early).AtEnd property thread call below
          (record ++ crew.stages thread below.length early) := by
  exact hsound.followed (stages thread below.length) (fun _ => rfl) (fun _ _ _ => rfl)
    (fun _ _ hstep => stage?_none hstep below.length)
    (fun _ _ _ _ hsound hat hstep => hsound.at_step hpreserved hat hstep) hat schedule

/-- However threads interleave, a call is in progress or has ended, and the record of its steps and
its outcome are like this. -/
def EndsAs (ending : List Stage → Outcome → Prop) (crew : Crew β) (thread : ℕ) (call : Call)
    (below : List Frame) : Prop :=
  ∀ schedule,
    (∃ above stage, (crew.run schedule).agendas[thread]? =
      some (above ++ .call { call with stage } :: below)) ∨
    ∃ early late outcome, schedule = early ++ late ∧
      (crew.run early).agendas[thread]? =
        some (.call { call with stage := .finished outcome } :: below) ∧
      ending (crew.stages thread below.length early) outcome

theorem EndsAs.mono {ending other : List Stage → Outcome → Prop}
    (hother : ∀ record outcome, ending record outcome → other record outcome)
    (hends : crew.EndsAs ending thread call below) : crew.EndsAs other thread call below := by
  intro schedule
  rcases hends schedule with hcourse | ⟨early, late, outcome, hschedule, hlater, hending⟩
  · exact .inl hcourse
  · exact .inr ⟨early, late, outcome, hschedule, hlater, hother _ _ hending⟩

/-- What a call preserves holds when it ends. -/
theorem Sound.endsAs [Lawful β] (hsound : crew.Sound)
    (hpreserved : Preserved call.action property)
    (hat : crew.At property thread call below []) :
    crew.EndsAs (fun record outcome => ∃ register, property register record (.finished outcome))
      thread call below := by
  intro schedule
  rcases hsound.pursued hpreserved hat schedule with
    ⟨above, stage, register, hlater, -⟩ |
    ⟨early, late, hschedule, outcome, register, hlater, -, hproperty⟩
  · exact .inl ⟨above, stage, hlater⟩
  · exact .inr ⟨early, late, outcome, hschedule, hlater, register, hproperty⟩

end Crew

end SharedCell
