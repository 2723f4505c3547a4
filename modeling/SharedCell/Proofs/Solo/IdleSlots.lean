import Mathlib
import SharedCell.Proofs.Crew.Progress
import SharedCell.Proofs.Solo.AtomicCalls
import SharedCell.Proofs.Solo.Registers

/-!
# States without calls on slots

If calls on slots take a single step, a thread is never seen in the middle of one.  Then nobody has
locked or pinned a slot, and a call that something interrupts has its outcome already.  The steps of
the implementation lead from one such state to the next.
-/

namespace SharedCell

open Text

variable {β : Type}

namespace Stage

variable {kind : CellKind} {guard : Guard} {action : Action} {facts : ObjectId → Facts}
  {shape : Layout → ObjectId → Shape} {slot next : Slot} {stage later : Stage}
  {effect : Option Effect}

/-- The slot is done with the call, or will not be called. -/
def Past : Stage → Prop
  | .asking .. | .calling _ => False
  | _ => True

theorem Past.idle (hpast : stage.Past) : stage.phase.Idle := by
  cases stage <;> first | exact idle_done {} | exact hpast.elim

theorem past_giveBack (unit : Option ObjectId) (outcome : Outcome) :
    (giveBack unit outcome).Past := by
  cases unit <;> trivial

theorem past_received (kind : CellKind) (result : Yield) (action : Action) :
    (received kind result action).Past := by
  cases action <;> simp only [received] <;> (try split) <;>
    first | exact past_giveBack _ _ | trivial

/-- A call that gives back a unit has its outcome. -/
theorem Past.step (hpast : stage.Past)
    (hstep : stage.step kind guard action facts shape slot = some (next, later, effect)) :
    later.Past ∧ ∀ obj, effect = some (.release obj) → ∃ outcome, later = .finished outcome := by
  cases move_of_step hstep with
  | accept | stop | call | receive => exact hpast.elim
  | _ => simp [Past]

end Stage

theorem Errand.fresh_errand (kind : CellKind) (action : Action) : (action.errand kind).Fresh := by
  cases action <;> simp only [Action.errand] <;> (try split) <;> trivial

namespace Call

/-- A call that is not in the middle of its call on the slot. -/
inductive Poised (world : World β) (call : Call) : Prop where
  | asking (cell : Cell) (new : ObjectId) (hcell : world.cell? call.cell = some cell)
      (hstage : call.stage = .asking new (call.action.errand cell.kind))
  | locking (cell : Cell) (hcell : world.cell? call.cell = some cell)
      (hstage : call.stage = .calling (.locking (call.action.errand cell.kind)))
  | past (hpast : call.stage.Past)

variable {world : World β} {call : Call} {cell : Cell}

theorem poised_opening (hcell : world.cell? call.cell = some cell)
    (hstage : call.stage = call.action.opening cell.kind) : call.Poised world := by
  unfold Action.opening at hstage
  split at hstage
  · exact .asking cell _ hcell hstage
  · exact .locking cell hcell hstage

theorem Poised.idle (hpoised : call.Poised world) : call.stage.phase.Idle := by
  cases hpoised with
  | asking cell new hcell hstage => exact hstage ▸ Stage.idle_done {}
  | locking cell hcell hstage => exact hstage ▸ Stage.idle_locking _
  | past hpast => exact hpast.idle

/-- A call that gives back a unit has its outcome. -/
theorem Poised.released {kind : CellKind} {guard : Guard} {facts : ObjectId → Facts}
    {shape : Layout → ObjectId → Shape} {slot next : Slot} {stage : Stage} {obj : ObjectId}
    (hpoised : call.Poised world) (hother : ∀ errand, call.stage ≠ .calling (.locking errand))
    (hstep : call.stage.step kind guard call.action facts shape slot =
      some (next, stage, some (.release obj))) : ∃ outcome, stage = .finished outcome := by
  cases hpoised with
  | asking found new hfound hstage =>
    rw [hstage] at hstep
    cases Stage.move_of_step hstep
  | locking found hfound hstage => exact absurd hstage (hother _)
  | past hpast => exact (hpast.step hstep).2 obj rfl

/-- A call that does not call its slot goes on to where it might. -/
theorem Poised.step [Resident β] (thread : ℕ) {slot : Slot} {stage : Stage} {effect : Option Effect}
    (hpoised : call.Poised world) (hcell : world.cell? call.cell = some cell)
    (hother : ∀ errand, call.stage ≠ .calling (.locking errand))
    (hstep : call.stage.step cell.kind cell.guard call.action world.facts world.shape cell.slot =
      some (slot, stage, effect)) :
    ({ call with stage } : Call).Poised
      (affect (world.modifyCell call.cell ({ · with slot })) thread cell.guard effect).1 := by
  cases hpoised with
  | asking found new hfound hstage =>
    obtain rfl := Option.some.inj (hcell.symm.trans hfound)
    rw [hstage] at hstep
    cases Stage.move_of_step hstep with
    | accept =>
      refine .locking { cell with slot := cell.slot } ?_ rfl
      rw [World.cell?, cells_affect]
      exact World.cell?_modifyCell hcell
    | stop => exact .past trivial
  | locking found hfound hstage => exact absurd hstage (hother _)
  | past hpast => exact .past (hpast.step hstep).1

end Call

namespace Slot

/-- A slot is nothing but its register if nobody is in the middle of a call on it. -/
theorem Ruled.plain {slot : Slot} {phases : Multiset Phase} (hruled : slot.Ruled phases)
    (hidle : ∀ phase ∈ phases, phase.Idle) : slot = slot.register.slot := by
  induction phases using Multiset.induction with
  | empty =>
    obtain ⟨listed, hlisted, hsound⟩ := hruled
    obtain rfl : listed = [] := Multiset.coe_eq_zero _ |>.mp hlisted
    obtain ⟨content, version, locked, ⟨even, odd⟩⟩ := slot
    have hlocked : locked = false := by
      have hlock := hsound.lock
      cases locked
      · rfl
      · cases hlock
    have heven : even = 0 := hsound.pins 0
    have hodd : odd = 0 := hsound.pins 1
    rw [hlocked, heven, hodd]
    rfl
  | cons phase others ih =>
    exact ih ((ruled_cons_idle (hidle phase (Multiset.mem_cons_self phase others))).mp hruled)
      fun other hother => hidle other (Multiset.mem_cons_of_mem hother)

end Slot

namespace Solo

variable [Resident β] {solo later : Solo β}

/-- The only thread is not in the middle of a call on a slot, and its interrupted calls have their
outcomes. -/
structure Calm (solo : Solo β) : Prop where
  sound : solo.crew.Sound
  poised : ∀ call, .call call ∈ solo.2 → call.Poised solo.1
  settled : ∀ call, .call call ∈ solo.2.tail → ∃ outcome, call.stage = .finished outcome

/-- What happens while a call on a slot goes through its phases. -/
def Within (solo between : Solo β) : Prop :=
  ∃ call below, solo.2 = .call call :: below ∧ Amid call below between

namespace Calm

theorem ordinary (hcalm : solo.Calm) : ∀ frame ∈ solo.2, frame.ordinary = true :=
  hcalm.sound.ordinary_agenda List.mem_cons_self

theorem cell_of_call (hcalm : solo.Calm) {call : Call} (hcall : .call call ∈ solo.2) :
    ∃ cell, solo.1.cell? call.cell = some cell := by
  have hagenda : solo.crew.agendas[0]? = some solo.2 := rfl
  obtain ⟨cell, hcell, -⟩ := hcalm.sound.cell_of_call hagenda hcall
  exact ⟨cell, hcell⟩

/-- All slots are nothing but their registers. -/
theorem plain (hcalm : solo.Calm) {name : String} {cell : Cell}
    (hcell : solo.1.cell? name = some cell) : cell.slot = cell.slot.register.slot := by
  have hhoused := hcalm.sound.world.housed
  refine (hhoused.sound name cell (mem_of_lookup hcell)).slot.plain ?_
  intro phase hphase
  obtain ⟨call, hcall, rfl⟩ := Multiset.mem_map.mp hphase
  obtain ⟨hmem, -⟩ := Stakes.mem_callsOn.mp hcall
  obtain ⟨agenda, hagenda, hframe⟩ := List.mem_flatten.mp (Stakes.mem_of_mem_calls hmem)
  obtain rfl := List.mem_singleton.mp hagenda
  exact (hcalm.poised call hframe).idle

/-- A step that is none of a call on a slot. -/
theorem next [Lawful β] (hcalm : solo.Calm) (hother : ∀ call below errand,
      solo.2 = .call call :: below → call.stage ≠ .calling (.locking errand))
    (hnext : solo.next = some later) : later.Calm := by
  obtain ⟨after, frames⟩ := later
  have hcrew : solo.crew.step 0 = some (crew (after, frames)) := by
    rw [crew_step, hnext]
    rfl
  constructor
  case sound => exact hcalm.sound.step hcrew
  case poised =>
    intro call hcall
    cases Frame.comes_step hcalm.ordinary hnext (.call call) hcall with
    | kept hmem =>
      obtain ⟨outcome, hfinished⟩ := hcalm.settled call hmem
      exact .past (hfinished ▸ trivial)
    | opening hopening =>
      obtain ⟨cell, hcell, hstage⟩ := hopening
      exact Call.poised_opening hcell hstage
    | stepped active below cell slot stage effect hagenda hcell hstage hafter hframe =>
      cases hframe
      have hactive : Frame.call active ∈ solo.2 := hagenda ▸ List.mem_cons_self
      rw [hafter]
      exact (hcalm.poised active hactive).step 0 hcell (hother active below · hagenda) hstage
    | seen holder obj payload below object hagenda hobject hmutable hnext hframe => cases hframe
  case settled =>
    have hsettled : ∀ frame ∈ frames.tail,
        ∀ call, frame = .call call → ∃ outcome, call.stage = .finished outcome := by
      refine Frame.forall_tail_step ?_ ?_ (fun frame hframe call heq => ?_) hcalm.ordinary hnext
      · rintro frame hquiet call rfl
        exact hquiet.elim
      · rintro active below cell slot stage obj hagenda hstage call heq
        cases heq
        have hactive : Frame.call active ∈ solo.2 := hagenda ▸ List.mem_cons_self
        exact (hcalm.poised active hactive).released (hother active below · hagenda) hstage
      · exact hcalm.settled call (heq ▸ hframe)
    exact fun call hcall => hsettled _ hcall call rfl

/-- A call does what its action asks of the slot. -/
theorem errand (hcalm : solo.Calm) {call : Call} {below : List Frame} {errand : Errand}
    (hagenda : solo.2 = .call call :: below) (hstage : call.stage = .calling (.locking errand)) :
    ∃ cell, solo.1.cell? call.cell = some cell ∧ errand = call.action.errand cell.kind := by
  cases hcalm.poised call (hagenda ▸ List.mem_cons_self) with
  | asking cell new hcell hasking => cases hstage.symm.trans hasking
  | past hpast => exact (hstage ▸ hpast : (Stage.calling _).Past).elim
  | locking cell hcell hlocking =>
    cases hstage.symm.trans hlocking
    exact ⟨cell, hcell, rfl⟩

/-- A call on a slot gets from one calm state to another. -/
theorem locking [Lawful β] (hcalm : solo.Calm) {call : Call} {below : List Frame} {errand : Errand}
    {cell : Cell} (hagenda : solo.2 = .call call :: below)
    (hstage : call.stage = .calling (.locking errand)) (hcell : solo.1.cell? call.cell = some cell)
    (hlater : later = (solo.1.leap call.cell cell.slot.register errand,
      .call (call.leap cell errand) :: below)) :
    later.Calm ∧ ∃ count ≤ 10, Path Solo.next (Amid call below) count solo later := by
  obtain ⟨found, hfound, rfl⟩ := hcalm.errand hagenda hstage
  obtain rfl := Option.some.inj (hcell.symm.trans hfound)
  have hfresh := Errand.fresh_errand cell.kind call.action
  obtain ⟨world, agenda⟩ := solo
  obtain rfl : agenda = .call call :: below := hagenda
  obtain ⟨count, hcount, hpath⟩ :=
    @path_of_locking β _ world call below cell _ hcell (hcalm.plain hcell) hstage hfresh
  rw [← hlater] at hpath
  refine ⟨⟨?_, ?_, ?_⟩, count, hcount, hpath⟩
  · have hsound := hcalm.sound.run (List.replicate count 0)
    rwa [crew_run, hpath.advance_eq] at hsound
  · intro other hother
    rw [hlater] at hother
    rcases List.mem_cons.mp hother with heq | hbelow
    · cases heq
      exact .past (Stage.past_received _ _ _)
    · obtain ⟨outcome, hfinished⟩ := hcalm.settled other hbelow
      exact .past (hfinished ▸ trivial)
  · rw [hlater]
    exact hcalm.settled

/-- Each step is a number of steps of the implementation, which does nothing but to go through the
phases of one call in between. -/
theorem leap [Lawful β] (hcalm : solo.Calm) (hleap : solo.leap = some later) :
    later.Calm ∧ ∃ count, Path Solo.next (Within solo) count solo later := by
  rcases leap_cases hleap with
    ⟨call, below, errand, cell, hagenda, hstage, hcell, hlater⟩ | ⟨hother, hnext⟩
  · obtain ⟨hcalm, count, -, hpath⟩ := hcalm.locking hagenda hstage hcell hlater
    exact ⟨hcalm, count, hpath.mono fun between hamid => ⟨call, below, hagenda, hamid⟩⟩
  · exact ⟨hcalm.next hother hnext, 1, .last hnext⟩

theorem advance [Lawful β] (hcalm : solo.Calm) (count : ℕ) :
    (Solo.advance Solo.leap count solo).Calm := by
  induction count generalizing solo with
  | zero => exact hcalm
  | succ count ih =>
    rw [Solo.advance]
    cases hleap : solo.leap with
    | none => exact ih hcalm
    | some later => exact ih (hcalm.leap hleap).1

/-- The thread goes on as long as something is under way. -/
theorem leap_isSome (hcalm : solo.Calm) (hunfinished : Frame.Unfinished solo.2) :
    solo.leap.isSome = true := by
  rw [← Option.ne_none_iff_isSome]
  intro hnone
  by_cases hlocking : ∃ call below errand, solo.2 = .call call :: below ∧
      call.stage = .calling (.locking errand)
  · obtain ⟨call, below, errand, hagenda, hstage⟩ := hlocking
    obtain ⟨cell, hcell, -⟩ := hcalm.errand hagenda hstage
    rw [leap_locking hagenda hstage hcell] at hnone
    cases hnone
  · have hother : ∀ call below errand,
        solo.2 = .call call :: below → call.stage ≠ .calling (.locking errand) :=
      fun call below errand hagenda hstage => hlocking ⟨call, below, errand, hagenda, hstage⟩
    rw [leap_eq_next hother] at hnone
    obtain ⟨call, below, hagenda, hwaits⟩ :=
      Frame.step_eq_none hunfinished hcalm.ordinary hnone
    have hcall : .call call ∈ solo.2 := hagenda ▸ List.mem_cons_self
    obtain ⟨cell, hcell⟩ := hcalm.cell_of_call hcall
    obtain ⟨errand, hstage, -⟩ := Call.step_eq_none hcell hwaits
    exact hother call below errand hagenda hstage

end Calm

/-- A thread that is about to perform its operations in a world without objects. -/
def start (ops : List Operation) : Solo β :=
  ({}, [.rounds 0 [] ops []])

theorem start_calm {ops : List Operation} (hordinary : Operation.ordinaryAll ops = true) :
    (start ops : Solo β).Calm where
  sound := by
    have hprograms : ∀ program ∈ [ops], Operation.ordinaryAll program = true := by
      simpa using hordinary
    exact Crew.start_sound hprograms
  poised := by simp [start]
  settled := by simp [start]

/-! ## Refinement -/

/-- One machine goes on as another one does, which passes over some of its states: the states where
the two meet, and the steps between two of them. -/
structure Refines (fine coarse : Solo β → Option (Solo β)) (within : Solo β → Solo β → Prop)
    (opening : Solo β) (pace : ℕ → ℕ) : Prop where
  start : pace 0 = 0
  meets : ∀ count, Solo.advance fine (pace count) opening = Solo.advance coarse count opening
  goes : ∀ count, (coarse (Solo.advance coarse count opening)).isSome →
    pace count < pace (count + 1)
  within : ∀ count steps, pace count < steps → steps < pace (count + 1) →
    within (Solo.advance coarse count opening) (Solo.advance fine steps opening)

/-- Where the implementation is after each step. -/
theorem Calm.refines [Lawful β] {opening : Solo β} (hcalm : opening.Calm) :
    ∃ pace, Refines Solo.next Solo.leap Within opening pace := by
  let states (count : ℕ) : Solo β := Solo.advance Solo.leap count opening
  have hstride : ∀ count, ∃ stride, Solo.advance Solo.next stride (states count) =
      states (count + 1) ∧ ((Solo.leap (states count)).isSome → 0 < stride) ∧
        ∀ steps, 0 < steps → steps < stride →
          Within (states count) (Solo.advance Solo.next steps (states count)) := by
    intro count
    have hstep : states (count + 1) = (Solo.leap (states count)).getD (states count) :=
      advance_succ count opening
    cases hleap : Solo.leap (states count) with
    | none => exact ⟨0, by rw [hstep, hleap]; rfl, by simp, by simp⟩
    | some later =>
      obtain ⟨-, stride, hpath⟩ := (hcalm.advance count).leap hleap
      refine ⟨stride, ?_, fun _ => hpath.pos, fun steps => hpath.inside_advance⟩
      rw [hpath.advance_eq, hstep, hleap, Option.getD_some]
  choose stride hmeets hgoes hwithin using hstride
  have hpace : ∀ count,
      Solo.advance Solo.next (∑ index ∈ Finset.range count, stride index) opening =
        states count := by
    intro count
    induction count with
    | zero => rfl
    | succ count ih => rw [Finset.sum_range_succ, advance_add, ih, hmeets]
  refine ⟨fun count => ∑ index ∈ Finset.range count, stride index, rfl, hpace, ?_, ?_⟩
  · intro count hsome
    rw [Finset.sum_range_succ]
    exact Nat.lt_add_of_pos_right (hgoes count hsome)
  · intro count steps hafter hbefore
    obtain ⟨more, rfl⟩ := Nat.exists_eq_add_of_lt hafter
    rw [Finset.sum_range_succ] at hbefore
    rw [Nat.add_assoc, advance_add, hpace]
    exact hwithin count (more + 1) (Nat.succ_pos more) (by omega)

end Solo

end SharedCell
