import Mathlib
import SharedCell.Proofs.Agenda.CallsInProgress
import SharedCell.Proofs.Crew.CallRuns

/-!
# Calls under way

What holds of every call that is in progress and of the register of its cell, given what its own
steps and those of others preserve, and since when a call has been where it is.
-/

namespace SharedCell.Crew

variable {β : Type} [Resident β] {crew next : Crew β} {thread : ℕ}

/-! ## Every call -/

/-- What holds of the stage of every call and of the register of its cell. -/
def Heeds (crew : Crew β) (property : Register → Stage → Prop) : Prop :=
  ∀ (thread : ℕ) (agenda : List Frame) (call : Call), crew.agendas[thread]? = some agenda →
    .call call ∈ agenda → ∃ register, crew.world.register? call.cell = some register ∧
      property register call.stage

/-- What calls begin with and preserve, and what others do not break by storing in the cell of a
call that does not hold the lock. -/
structure Heeded (property : Register → Stage → Prop) : Prop where
  opening : ∀ register kind action, property register (Action.opening kind action)
  own : ∀ kind guard action facts shape slot next stage later effect,
    property slot.register stage →
    Stage.step kind guard action facts shape slot stage = some (next, later, effect) →
      property next.register later
  others : ∀ register stage new, stage.phase.holdsLock = false → property register stage →
    property (register.after (some new)) stage

variable {property : Register → Stage → Prop}

omit [Resident β] in
theorem start_heeds (programs : List (List Operation)) (property : Register → Stage → Prop) :
    (start programs : Crew β).Heeds property := by
  intro thread agenda call hagenda hcall
  obtain ⟨ops, -, rfl⟩ := List.mem_map.mp (List.mem_of_getElem? hagenda)
  cases List.mem_singleton.mp hcall

theorem Heeded.turns (hheeded : Heeded property) {register turned : Register} {stage : Stage}
    (hturns : register.Turns stage.phase.holdsLock turned) (hproperty : property register stage) :
    property turned stage := by
  rcases hturns with rfl | ⟨hlock, new, rfl⟩
  · exact hproperty
  · exact hheeded.others register stage new hlock hproperty

variable [Lawful β]

theorem Sound.heeds_step (hsound : crew.Sound) (hheeded : Heeded property)
    (hheeds : crew.Heeds property) (hstep : crew.step thread = some next) :
    next.Heeds property := by
  have hbeside : ∀ other above call below,
      crew.agendas[other]? = some (above ++ .call call :: below) → thread ≠ other ∨ above ≠ [] →
        ∃ register, next.world.register? call.cell = some register ∧
          property register call.stage := by
    intro other above call below hplace hother
    obtain ⟨-, register, turned, hregister, hturned, hturns⟩ :=
      hsound.step_beside hplace hstep hother
    obtain ⟨found, hfound, hproperty⟩ := hheeds other _ call hplace (by simp)
    obtain rfl := Option.some.inj (hregister.symm.trans hfound)
    exact ⟨turned, hturned, hheeded.turns hturns hproperty⟩
  obtain ⟨agenda, world, later, hagenda, hframe, rfl⟩ := step_eq_some hstep
  intro other found call hfound hcall
  by_cases hsame : thread = other
  · subst hsame
    rw [List.getElem?_set_self (List.getElem?_eq_some_iff.mp hagenda).1] at hfound
    obtain rfl := Option.some.inj hfound
    have hordinary := hsound.ordinary_agenda (List.mem_of_getElem? hagenda)
    cases Frame.comes_step hordinary hframe _ hcall with
    | kept hmem =>
      cases agenda with
      | nil => cases hmem
      | cons top rest =>
        obtain ⟨above, below, hsplit⟩ := List.append_of_mem hmem
        rw [List.tail_cons] at hsplit
        subst hsplit
        exact hbeside thread (top :: above) call below hagenda (.inr (List.cons_ne_nil _ _))
    | opening hopening =>
      obtain ⟨cell, hcell, hstage⟩ := hopening
      exact ⟨cell.slot.register, World.register?_of_cell hcell, hstage ▸ hheeded.opening _ _ _⟩
    | stepped active below cell slot stage effect hplace hcell hstage hnext hcalled =>
      obtain rfl := Frame.call.inj hcalled
      obtain ⟨register, hregister, hproperty⟩ :=
        hheeds thread agenda active hagenda (hplace ▸ List.mem_cons_self)
      rw [World.register?_of_cell hcell] at hregister
      obtain rfl := Option.some.inj hregister
      refine ⟨slot.register, ?_, hheeded.own _ _ _ _ _ _ _ _ _ _ hproperty hstage⟩
      change world.register? active.cell = _
      rw [hnext, World.register?_congr (Call.cells_affect _ thread cell.guard effect),
        World.register?, World.cell?_modifyCell hcell, Option.map_some]
    | seen holder obj payload below object hplace hobject hmutable hnext hcalled => cases hcalled
  · rw [List.getElem?_set_ne hsame] at hfound
    obtain ⟨above, below, rfl⟩ := List.append_of_mem hcall
    exact hbeside other above call below hfound (.inl hsame)

/-- What calls preserve holds of all of them, however threads interleave. -/
theorem Sound.heeds (hsound : crew.Sound) (hheeded : Heeded property)
    (hheeds : crew.Heeds property) (schedule : List ℕ) : (crew.run schedule).Heeds property :=
  hsound.run_keeps (·.Heeds property)
    (fun _ _ _ hsound hheeds hstep => hsound.heeds_step hheeded hheeds hstep) hheeds schedule

/-! ## Since when -/

/-- A call of a thread is at a stage like this. -/
def Has (crew : Crew β) (thread : ℕ) (call : Call) (place : Stage → Prop) : Prop :=
  ∃ agenda stage, crew.agendas[thread]? = some agenda ∧ .call { call with stage } ∈ agenda ∧
    place stage

/-- One step of a schedule took a call to a place where it has been since. -/
def Arrived (crew : Crew β) (schedule : List ℕ) (thread : ℕ) (call : Call)
    (place : Stage → Prop) : Prop :=
  ∃ early late below stage cell slot later effect, schedule = early ++ thread :: late ∧
    (crew.run early).agendas[thread]? = some (.call { call with stage } :: below) ∧
    (crew.run early).world.cell? call.cell = some cell ∧
    stage.step cell.kind cell.guard call.action (crew.run early).world.facts
      (crew.run early).world.shape cell.slot = some (slot, later, effect) ∧
    ¬ place stage ∧ place later ∧
    ∀ front back, late = front ++ back →
      (crew.run (early ++ thread :: front)).Has thread call place

variable {place : Stage → Prop} {call : Call} {schedule : List ℕ}

omit [Lawful β] in
/-- A call that stays where it is has been there since. -/
theorem Arrived.concat (harrived : crew.Arrived schedule thread call place) {other : ℕ}
    (hhas : (crew.run (schedule ++ [other])).Has thread call place) :
    crew.Arrived (schedule ++ [other]) thread call place := by
  obtain ⟨early, late, below, stage, cell, slot, later, effect, rfl, hagenda, hcell, hstep, hbefore,
    hafter, hsince⟩ := harrived
  refine ⟨early, late ++ [other], below, stage, cell, slot, later, effect, by simp, hagenda, hcell,
    hstep, hbefore, hafter, ?_⟩
  intro front back hsplit
  rcases List.eq_nil_or_concat back with rfl | ⟨rest, last, rfl⟩
  · rw [List.append_nil] at hsplit
    rw [← hsplit, ← List.cons_append, ← List.append_assoc]
    exact hhas
  · rw [List.concat_eq_append, ← List.append_assoc] at hsplit
    exact hsince front rest (List.append_inj_left' hsplit rfl)

/-- Where no call begins, a call has been since one of its own steps. -/
theorem run_arrived {programs : List (List Operation)}
    (hordinary : ∀ ops ∈ programs, Operation.ordinaryAll ops = true)
    (hopening : ∀ kind action, ¬ place (Action.opening kind action)) (schedule : List ℕ)
    {agenda : List Frame}
    (hagenda : ((start programs : Crew β).run schedule).agendas[thread]? = some agenda)
    (hcall : .call call ∈ agenda) (hplace : place call.stage) :
    (start programs : Crew β).Arrived schedule thread call place := by
  induction schedule using List.reverseRecOn generalizing call agenda with
  | nil =>
    obtain ⟨ops, -, rfl⟩ := List.mem_map.mp (List.mem_of_getElem? hagenda)
    cases List.mem_singleton.mp hcall
  | append_singleton schedule other ih =>
    have hhas : ((start programs : Crew β).run (schedule ++ [other])).Has thread call place :=
      ⟨agenda, call.stage, hagenda, hcall, hplace⟩
    have hsound := (start_sound hordinary : (start programs : Crew β).Sound).run schedule
    rw [run_append, Crew.run, Crew.run] at hagenda
    cases hstep : ((start programs : Crew β).run schedule).step other with
    | none =>
      rw [hstep, Option.getD_none] at hagenda
      exact (ih hagenda hcall hplace).concat hhas
    | some next =>
      rw [hstep, Option.getD_some] at hagenda
      by_cases hsame : other = thread
      · subst hsame
        obtain ⟨before, world, later, hbefore, hframe, rfl⟩ := step_eq_some hstep
        rw [List.getElem?_set_self (List.getElem?_eq_some_iff.mp hbefore).1] at hagenda
        obtain rfl := Option.some.inj hagenda
        cases Frame.comes_step (hsound.ordinary_agenda (List.mem_of_getElem? hbefore)) hframe _
          hcall with
        | kept hmem => exact (ih hbefore (List.mem_of_mem_tail hmem) hplace).concat hhas
        | opening hopens =>
          obtain ⟨cell, -, hstage⟩ := hopens
          exact absurd (hstage ▸ hplace) (hopening _ _)
        | stepped active below cell slot stage effect htop hcell hstage hnext hcalled =>
          obtain rfl := Frame.call.inj hcalled
          by_cases hstays : place active.stage
          · have hmem : .call active ∈ before := htop ▸ List.mem_cons_self
            exact Arrived.concat (ih hbefore hmem hstays) hhas
          · refine ⟨schedule, [], below, active.stage, cell, slot, stage, effect, rfl,
              hbefore.trans (by rw [htop]), hcell, hstage, hstays, hplace, ?_⟩
            intro front back hsplit
            obtain ⟨rfl, -⟩ := List.append_eq_nil_iff.mp hsplit.symm
            exact hhas
        | seen holder obj payload below object htop hobject hmutable hnext hcalled => cases hcalled
      · rw [step_agenda_of_ne hstep hsame] at hagenda
        exact (ih hagenda hcall hplace).concat hhas

end SharedCell.Crew
