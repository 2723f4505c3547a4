import Mathlib
import SharedCell.Proofs.Crew.Access
import SharedCell.Proofs.Crew.Contents
import SharedCell.Proofs.Crew.InterruptedThreads

/-!
# Publication

An object is published when it becomes the content of an atomic cell that has the guard of cells
made by default.  From then on it is frozen or permanent, and so nobody gets access to its payload
again, even if it leaves all cells and comes down to a single unit.  One thread alone cannot freeze
an object between its two looks at it, so that every payload that changes is a mutable object's.
-/

namespace SharedCell

variable {β : Type} [Resident β]

theorem Lawful.isMutable_of_facts [Lawful β] {body other : β}
    (hfacts : Resident.facts other = Resident.facts body) :
    Resident.isMutable other = Resident.isMutable body := by
  rw [isMutable_eq, isMutable_eq, permanent_of_facts hfacts]
  exact congrArg (fun facts : Facts => !facts.frozen && !Counted.isPermanent body) hfacts

namespace Crew

variable {crew next : Crew β} {thread : ℕ} {obj : ObjectId} {object after : Object β}

/-! ## One thread -/

/-- A single thread.  An object whose count it is about to look at is mutable. -/
structure Alone (crew : Crew β) : Prop where
  sound : crew.Sound
  rest : crew.AtRest
  alone : ∃ agenda, crew.agendas = [agenda]
  seen : ∀ agenda ∈ crew.agendas, ∀ holder obj payload, .mutate holder obj payload true ∈ agenda →
    ∃ object, crew.world.object? obj = some object ∧ Resident.isMutable object.body = true

theorem start_alone {ops : List Operation} (hordinary : Operation.ordinaryAll ops = true) :
    (start [ops] : Crew β).Alone where
  sound := start_sound (by simpa using hordinary)
  rest := start_atRest [ops]
  alone := ⟨_, rfl⟩
  seen agenda hagenda holder obj payload hmem := by
    obtain rfl := List.mem_singleton.mp hagenda
    cases List.mem_singleton.mp hmem

/-- The next step looks at the count before anything else can happen to the object. -/
theorem Alone.step [Lawful β] (halone : crew.Alone) (hstep : crew.step thread = some next) :
    next.Alone := by
  have hsound := halone.sound.step hstep
  have hrest := halone.rest.step halone.sound hstep
  obtain ⟨agenda, world, later, hagenda, hframe, rfl⟩ := step_eq_some hstep
  obtain ⟨only, honly⟩ := halone.alone
  have hmem := List.mem_of_getElem? hagenda
  have hthread : thread = 0 := by
    have hlt := (List.getElem?_eq_some_iff.mp hagenda).1
    rw [honly] at hlt
    exact Nat.lt_one_iff.mp hlt
  have hlater : crew.agendas.set thread later = [later] := by
    rw [honly, hthread]
    rfl
  refine ⟨hsound, hrest, ⟨later, hlater⟩, ?_⟩
  intro other hother holder obj payload hseen
  rw [hlater, List.mem_singleton] at hother
  subst hother
  cases Frame.comes_step (halone.sound.ordinary_agenda hmem) hframe _ hseen with
  | kept hkept => exact (halone.rest agenda hmem _ hkept).elim
  | opening hopening => cases hopening
  | stepped active below cell slot stage effect _ _ _ _ heq => cases heq
  | seen holder obj payload below object _ hobject hmutable hnext heq =>
    cases heq
    exact ⟨object, hnext ▸ hobject, hmutable⟩

theorem Alone.run [Lawful β] (halone : crew.Alone) (schedule : List ℕ) :
    (crew.run schedule).Alone :=
  run_keeps Alone (fun _ _ _ halone hstep => halone.step hstep) halone schedule

/-! ## Payloads -/

variable [Lawful β]

/-- A step either leaves all payloads alone, or changes that of a mutable object with one owner. -/
theorem Alone.tends_or_changes (halone : crew.Alone) (hstep : crew.step thread = some next) :
    crew.world.Tends (fun _ => False) next.world ∨
      ∃ obj object payload, crew.world.object? obj = some object ∧
        Resident.isMutable object.body = true ∧ Resident.count object.body = 1 ∧
        crew.owners obj = 1 ∧ next.world = crew.world.modifyObject obj fun object =>
          { object with body := Resident.setPayload object.body payload } := by
  obtain ⟨agenda, world, later, hagenda, hframe, rfl⟩ := step_eq_some hstep
  have hmem := List.mem_of_getElem? hagenda
  rcases Frame.tends_or_granted (fun _ => False) (halone.sound.ordinary_agenda hmem)
    (fun _ _ _ => id) (fun _ _ _ _ _ => id) hframe with
      htends | ⟨holder, obj, payload, below, object, rfl, hobject, hcount, rfl⟩
  · exact .inl htends
  · obtain ⟨found, hfound, hmutable⟩ := halone.seen _ hmem holder obj payload List.mem_cons_self
    rw [hobject] at hfound
    obtain rfl := Option.some.inj hfound
    exact .inr ⟨obj, object, payload, hobject, hmutable, hcount,
      (halone.sound.solitary hagenda hobject hcount).owners, rfl⟩

/-- What is frozen or permanent stays as it is. -/
theorem Alone.fixed_step (halone : crew.Alone) (hstep : crew.step thread = some next)
    (hobject : crew.world.object? obj = some object)
    (himmutable : Resident.isMutable object.body = false) :
    ∃ after, next.world.object? obj = some after ∧
      Resident.facts after.body = Resident.facts object.body := by
  rcases halone.tends_or_changes hstep with
    htends | ⟨other, found, payload, hfound, hmutable, -, -, hnext⟩
  · obtain ⟨after, hafter, htended⟩ := htends obj object hobject
    refine ⟨after, hafter, ?_⟩
    rcases htended.facts with hsame | ⟨hcounted, hfrozen⟩
    · exact hsame
    · have halready : Counted.isFrozen object.body = true := by
        simpa [Lawful.isMutable_eq, hcounted] using himmutable
      rw [hfrozen, Resident.facts, halready]
  · have hne : other ≠ obj := by
      rintro rfl
      rw [hobject] at hfound
      obtain rfl := Option.some.inj hfound
      rw [himmutable] at hmutable
      cases hmutable
    refine ⟨object, ?_, rfl⟩
    rw [hnext, World.object?, Books.getElem?_modifyObject, if_neg hne]
    exact hobject

theorem Alone.fixed (halone : crew.Alone) (hobject : crew.world.object? obj = some object)
    (himmutable : Resident.isMutable object.body = false) (schedule : List ℕ) :
    ∃ after, (crew.run schedule).world.object? obj = some after ∧
      Resident.facts after.body = Resident.facts object.body := by
  have hboth : (crew.run schedule).Alone ∧ ∃ after, (crew.run schedule).world.object? obj =
      some after ∧ Resident.facts after.body = Resident.facts object.body := by
    refine run_keeps (fun later => later.Alone ∧ ∃ after, later.world.object? obj = some after ∧
      Resident.facts after.body = Resident.facts object.body) ?_ ⟨halone, object, hobject, rfl⟩
      schedule
    rintro later thread next ⟨halone, between, hbetween, hfacts⟩ hstep
    have hstill := (Lawful.isMutable_of_facts hfacts).trans himmutable
    obtain ⟨after, hafter, hagain⟩ := halone.fixed_step hstep hbetween hstill
    exact ⟨halone.step hstep, after, hafter, hagain.trans hfacts⟩
  exact hboth.2

theorem Alone.changes (halone : crew.Alone) (hstep : crew.step thread = some next)
    (hobject : crew.world.object? obj = some object)
    (hafter : next.world.object? obj = some after)
    (hchanged : Resident.payload after.body ≠ Resident.payload object.body) :
    Resident.isMutable object.body = true ∧ Resident.count object.body = 1 ∧
      crew.owners obj = 1 := by
  rcases halone.tends_or_changes hstep with
    htends | ⟨other, found, payload, hfound, hmutable, hcount, howners, hnext⟩
  · obtain ⟨later, hlater, htended⟩ := htends obj object hobject
    rw [hafter] at hlater
    obtain rfl := Option.some.inj hlater
    rcases htended.facts with hsame | ⟨-, hfrozen⟩
    · exact absurd (congrArg Facts.payload hsame) hchanged
    · exact absurd (congrArg Facts.payload hfrozen) hchanged
  · by_cases hne : other = obj
    · subst hne
      rw [hobject] at hfound
      obtain rfl := Option.some.inj hfound
      exact ⟨hmutable, hcount, howners⟩
    · rw [hnext, World.object?, Books.getElem?_modifyObject, if_neg hne] at hafter
      rw [World.object?, hafter] at hobject
      obtain rfl := Option.some.inj hobject
      exact absurd rfl hchanged

/-! ## Staged objects -/

/-- An atomic cell with the guard of cells made by default holds the object. -/
def Publishes (crew : Crew β) (obj : ObjectId) : Prop :=
  ∃ name cell, (name, cell) ∈ crew.world.cells ∧ cell.kind = .atomic ∧
    cell.guard = .standard ∧ cell.slot.content = some obj

/-- An object that is as it was and that nobody gets access to, whoever asks. -/
structure Fixed (crew later : Crew Staged) (obj : ObjectId) : Prop where
  same : ∃ object after, crew.world.object? obj = some object ∧
    later.world.object? obj = some after ∧ object.body.stage ≠ .mutable ∧
    after.body.stage = object.body.stage ∧ after.body.payload = object.body.payload
  refused : ∀ thread holder payload below,
    Frame.step thread later.world (.mutate holder obj payload false :: below) =
      some (later.world, .tidy [.endUse holder] (.flag false) :: below)
  unseen : ∀ agenda ∈ later.agendas, ∀ holder payload,
    .mutate holder obj payload true ∉ agenda

/-- What becomes of payloads between two moments, and in the next step after that. -/
structure Publication (crew later : Crew Staged) : Prop where
  fixed : ∀ obj, crew.Publishes obj → Fixed crew later obj
  /-- A mutable object may be frozen, and no object goes to any other stage. -/
  stages : ∀ obj object, crew.world.object? obj = some object →
    ∃ after, later.world.object? obj = some after ∧
      (after.body.stage = object.body.stage ∨
        object.body.stage = .mutable ∧ after.body.stage = .frozen)
  changes : ∀ thread next obj object after, later.step thread = some next →
    later.world.object? obj = some object → next.world.object? obj = some after →
    after.body.payload ≠ object.body.payload →
      object.body.stage = .mutable ∧ object.body.count = 1 ∧ later.owners obj = 1

theorem stage_of_facts {body other : Staged} (hfacts : Resident.facts other = Resident.facts body) :
    other.stage = body.stage := by
  have hfrozen := congrArg Facts.frozen hfacts
  have hpermanent := congrArg Facts.permanent hfacts
  cases hother : other.stage <;> cases hbody : body.stage <;>
    simp_all [Resident.facts, Counted.isFrozen, Counted.isPermanent]

theorem stage_of_persists {object after : Object Staged} (hpersists : object.Persists after) :
    after.body.stage = object.body.stage ∨
      object.body.stage = .mutable ∧ after.body.stage = .frozen := by
  have hpermanent := hpersists.permanent
  have hfrozen := hpersists.frozen
  cases hafter : after.body.stage <;> cases hobject : object.body.stage <;>
    simp_all [Counted.isFrozen, Counted.isPermanent]

theorem Alone.fixed_of_publishes {crew : Crew Staged} (halone : crew.Alone)
    (hpublishes : crew.Publishes obj) (schedule : List ℕ) :
    Fixed crew (crew.run schedule) obj := by
  obtain ⟨name, cell, hcell, hkind, hguard, hcontent⟩ := hpublishes
  obtain ⟨object, hobject, hshareable⟩ :=
    halone.sound.guarded.shareable name cell obj hcell hkind hcontent hguard
  have himmutable : Resident.isMutable object.body = false := by
    rw [Lawful.isMutable_eq]
    rcases hshareable with hfrozen | hpermanent
    · simp [hfrozen]
    · simp [hpermanent]
  obtain ⟨after, hafter, hfacts⟩ := halone.fixed hobject himmutable schedule
  have hstill := (Lawful.isMutable_of_facts hfacts).trans himmutable
  constructor
  case same =>
    refine ⟨object, after, hobject, hafter, ?_, stage_of_facts hfacts,
      congrArg Facts.payload hfacts⟩
    intro hmutable
    simp [Resident.isMutable, hmutable] at himmutable
  case refused =>
    intro thread holder payload below
    simp [Frame.step, hafter, hstill]
  case unseen =>
    intro agenda hagenda holder payload hmem
    obtain ⟨found, hfound, hmutable⟩ := (halone.run schedule).seen agenda hagenda _ _ _ hmem
    rw [hafter] at hfound
    obtain rfl := Option.some.inj hfound
    rw [hstill] at hmutable
    cases hmutable

/-- Whatever operations one thread performs, the payload of an object never changes again once an
atomic cell with the guard of cells made by default has held it, and nobody gets access to it. -/
theorem run_published {ops : List Operation} (hordinary : Operation.ordinaryAll ops = true)
    (schedule further : List ℕ) :
    ((start [ops] : Crew Staged).run schedule).Publication
      ((start [ops] : Crew Staged).run (schedule ++ further)) := by
  have halone := (start_alone hordinary : (start [ops] : Crew Staged).Alone).run schedule
  rw [run_append]
  constructor
  case fixed => exact fun obj hpublishes => halone.fixed_of_publishes hpublishes further
  case stages =>
    intro obj object hobject
    obtain ⟨after, hafter, hpersists⟩ := halone.sound.persists further obj object hobject
    exact ⟨after, hafter, stage_of_persists hpersists⟩
  case changes =>
    intro thread next obj object after hstep hobject hafter hchanged
    obtain ⟨hmutable, hcount, howners⟩ :=
      (halone.run further).changes hstep hobject hafter hchanged
    have hsingle : (object.body.count : ℤ) = 1 := hcount
    refine ⟨?_, by exact_mod_cast hsingle, howners⟩
    simpa [Resident.isMutable] using hmutable

/-- An object is frozen, put into a cell and taken out again, and access is asked for. -/
def retraction : List Operation :=
  [.alloc (some "a") (some (.int 1)) (some .mutable) [] [],
    .freeze (some "a"),
    .newCell (some "c") .absent (.named "a") (some (some .atomic)) (some .value) none,
    .drop (some "a"),
    .onCell (some "c") .take .empty .empty (some "a"),
    .mutate (some (.int 2)) (some "a")]

theorem run_published_retraction : Operation.ordinaryAll retraction = true ∧
    ((start [retraction] : Crew Staged).run (List.replicate 10 0)).world.cells.any
      (·.2.slot.content == some 0) = true ∧
    ((start [retraction] : Crew Staged).run
      (List.replicate 10 0 ++ List.replicate 16 0)).world.count 0 = 1 ∧
    ((start [retraction] : Crew Staged).run (List.replicate 10 0)).Publication
      ((start [retraction] : Crew Staged).run (List.replicate 10 0 ++ List.replicate 16 0)) :=
  ⟨by decide, by decide +kernel, by decide +kernel,
    run_published (by decide) (List.replicate 10 0) (List.replicate 16 0)⟩

end Crew

end SharedCell
