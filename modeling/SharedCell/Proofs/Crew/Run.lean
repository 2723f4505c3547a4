import Mathlib
import SharedCell.Proofs.Ownership.Persistence
import SharedCell.Session

/-!
# Crews

A crew is any number of threads that share a world.  Each thread has an agenda of its own, and a
schedule says whose step is next.  What holds of a world between the steps of one thread, whatever
is at stake for others, holds between the steps of all.
-/

namespace SharedCell

variable {β : Type}

/-- Threads that share a world, each with its agenda. -/
structure Crew (β : Type) where
  world : World β
  agendas : List (List Frame)

namespace Crew

/-- Threads that are about to perform their operations in a world without objects. -/
def start (programs : List (List Operation)) : Crew β where
  world := {}
  agendas := programs.map fun ops => [.rounds 0 [] ops []]

/-- What is at stake for all threads. -/
def stakes (crew : Crew β) : Stakes :=
  stakesOf crew.agendas.flatten

/-- Nothing is at stake before the first step. -/
theorem stakes_start (programs : List (List Operation)) :
    (start programs : Crew β).stakes = 0 := by
  apply List.sum_eq_zero
  intro stakes hstakes
  obtain ⟨frame, hframe, rfl⟩ := List.mem_map.mp hstakes
  obtain ⟨agenda, hagenda, hmem⟩ := List.mem_flatten.mp hframe
  obtain ⟨ops, -, rfl⟩ := List.mem_map.mp hagenda
  obtain rfl := List.mem_singleton.mp hmem
  rfl

variable [Resident β]

/-- The next step of a thread.  One that waits or has ended has none. -/
def step (crew : Crew β) (thread : ℕ) : Option (Crew β) := do
  let agenda ← crew.agendas[thread]?
  let (world, agenda) ← Frame.step thread crew.world agenda
  pure { world, agendas := crew.agendas.set thread agenda }

/-- Performs the steps of a schedule, and passes over threads that have none. -/
def run (crew : Crew β) : List ℕ → Crew β
  | [] => crew
  | thread :: schedule => ((crew.step thread).getD crew).run schedule

/-- The world is sound with respect to all threads, and they perform ordinary operations only. -/
structure Sound (crew : Crew β) : Prop where
  world : crew.world.Sound crew.stakes
  ordinary : ∀ frame ∈ crew.agendas.flatten, frame.ordinary = true

variable {crew next : Crew β} {thread : ℕ}

/-- The frames of a thread lead to ordinary operations only. -/
theorem Sound.ordinary_agenda (hsound : crew.Sound) {agenda : List Frame}
    (hagenda : agenda ∈ crew.agendas) : ∀ frame ∈ agenda, frame.ordinary = true :=
  fun frame hframe => hsound.ordinary frame (List.mem_flatten.mpr ⟨agenda, hagenda, hframe⟩)

theorem run_append (crew : Crew β) (schedule further : List ℕ) :
    crew.run (schedule ++ further) = (crew.run schedule).run further := by
  induction schedule generalizing crew with
  | nil => rfl
  | cons thread schedule ih => exact ih _

/-- What every step keeps holds after every run. -/
theorem run_keeps (property : Crew β → Prop)
    (hkept : ∀ crew thread next, property crew → crew.step thread = some next → property next)
    (hproperty : property crew) (schedule : List ℕ) : property (crew.run schedule) := by
  induction schedule generalizing crew with
  | nil => exact hproperty
  | cons thread schedule ih =>
    rw [Crew.run]
    cases hstep : crew.step thread with
    | none => exact ih hproperty
    | some next => exact ih (hkept crew thread next hproperty hstep)

theorem step_eq_some (hstep : crew.step thread = some next) :
    ∃ agenda world later, crew.agendas[thread]? = some agenda ∧
      Frame.step thread crew.world agenda = some (world, later) ∧
      next = { world, agendas := crew.agendas.set thread later } := by
  unfold step at hstep
  simp only [Option.bind_eq_bind, Option.bind_eq_some_iff, Option.pure_def,
    Option.some.injEq] at hstep
  obtain ⟨agenda, hagenda, ⟨world, later⟩, hframe, rfl⟩ := hstep
  exact ⟨agenda, world, later, hagenda, hframe, rfl⟩

theorem start_sound {programs : List (List Operation)}
    (hordinary : ∀ ops ∈ programs, Operation.ordinaryAll ops = true) :
    (start programs : Crew β).Sound where
  world := by
    rw [stakes_start]
    exact .empty
  ordinary frame hframe := by
    obtain ⟨agenda, hagenda, hmem⟩ := List.mem_flatten.mp hframe
    obtain ⟨ops, hops, rfl⟩ := List.mem_map.mp hagenda
    obtain rfl := List.mem_singleton.mp hmem
    exact hordinary ops hops

/-- To each thread the others' stakes are no more than what must be left alone. -/
theorem Sound.step [Lawful β] (hsound : crew.Sound) (hstep : crew.step thread = some next) :
    next.Sound := by
  obtain ⟨agenda, world, later, hagenda, hframe, rfl⟩ := step_eq_some hstep
  obtain ⟨before, after, hplace, -, hset, -⟩ := exists_place hagenda
  have hstakes (frames : List Frame) : stakesOf (before ++ frames :: after).flatten =
      stakesOf frames + (stakesOf before.flatten + stakesOf after.flatten) := by
    rw [List.flatten_append, List.flatten_cons, stakesOf_append, stakesOf_append, add_left_comm]
  have hmem (frames : List Frame) (frame : Frame) : frame ∈ (before ++ frames :: after).flatten ↔
      frame ∈ frames ∨ frame ∈ (before ++ after).flatten := by
    rw [List.flatten_append, List.flatten_append, List.flatten_cons, List.mem_append,
      List.mem_append, List.mem_append, or_left_comm]
  have hworld := hsound.world
  have hordinary := hsound.ordinary
  rw [Crew.stakes, hplace, hstakes] at hworld
  rw [hplace] at hordinary
  obtain ⟨hstepped, hlater⟩ := Frame.step_stepped hworld
    (fun frame hframe => hordinary frame ((hmem agenda frame).mpr (.inl hframe))) hframe
  constructor
  case world =>
    rw [Crew.stakes, hset, hstakes]
    exact hstepped
  case ordinary =>
    intro frame hframe
    rw [hset, hmem] at hframe
    rcases hframe with hnew | hother
    · exact hlater frame hnew
    · exact hordinary frame ((hmem agenda frame).mpr (.inr hother))

theorem Sound.run [Lawful β] (hsound : crew.Sound) (schedule : List ℕ) :
    (crew.run schedule).Sound :=
  run_keeps Sound (fun _ _ _ hsound hstep => hsound.step hstep) hsound schedule

/-- What every step from a sound crew keeps holds after every run. -/
theorem Sound.run_keeps [Lawful β] (hsound : crew.Sound) (property : Crew β → Prop)
    (hkept : ∀ crew thread next, crew.Sound → property crew → crew.step thread = some next →
      property next)
    (hproperty : property crew) (schedule : List ℕ) : property (crew.run schedule) := by
  have hboth : (crew.run schedule).Sound ∧ property (crew.run schedule) :=
    Crew.run_keeps (fun crew => crew.Sound ∧ property crew)
      (fun crew thread next hbefore hstep =>
        ⟨hbefore.1.step hstep, hkept crew thread next hbefore.1 hbefore.2 hstep⟩)
      ⟨hsound, hproperty⟩ schedule
  exact hboth.2

theorem Sound.persists_step [Lawful β] (hsound : crew.Sound)
    (hstep : crew.step thread = some next) : crew.world.Persists next.world := by
  obtain ⟨agenda, world, later, hagenda, hframe, rfl⟩ := step_eq_some hstep
  exact World.Persists.step (hsound.ordinary_agenda (List.mem_of_getElem? hagenda)) hframe

theorem Sound.persists [Lawful β] (hsound : crew.Sound) (schedule : List ℕ) :
    crew.world.Persists (crew.run schedule).world :=
  hsound.run_keeps (fun later => crew.world.Persists later.world)
    (fun _ _ _ hlater hpersists hstep => hpersists.trans (hlater.persists_step hstep))
    (.refl crew.world) schedule

end Crew

/-! ## Sessions -/

namespace Session

variable [Resident β] {session next : Session β}

/-- A session without a race is a crew of one. -/
def crew (session : Session β) : Crew β where
  world := session.world
  agendas := [session.main]

theorem step_crew (hordinary : ∀ frame ∈ session.main, frame.ordinary = true)
    (hreader : session.reader = []) :
    session.step.map crew = session.crew.step 0 ∧
      ∀ next, session.step = some next → next.reader = [] := by
  have hidle (world : World β) (main : List Frame) :
      stepReader { session with world, main } = none := by
    rw [stepReader, hreader]
    rfl
  unfold step
  split
  · rename_i race below hmain
    have hrace := hordinary (.race race) (hmain ▸ List.mem_cons_self)
    cases hrace
  · cases hframe : Frame.step 0 session.world session.main with
    | none =>
      have hnone : session.stepReader = none := hidle session.world session.main
      simp [Crew.step, crew, hframe, hnone]
    | some result =>
      obtain ⟨world, main⟩ := result
      simp only [hidle, Option.getD_none, ite_self]
      simp [Crew.step, crew, hframe, hreader]

/-- What is known of crews holds of the sessions that are performed. -/
theorem run_crew [Lawful β] (hsound : session.crew.Sound) (hreader : session.reader = [])
    (fuel : ℕ) : (session.run fuel).crew = session.crew.run (List.replicate fuel 0) := by
  induction fuel generalizing session with
  | zero => rfl
  | succ fuel ih =>
    have hordinary : ∀ frame ∈ session.main, frame.ordinary = true :=
      fun frame hframe => hsound.ordinary frame (by simpa [crew] using hframe)
    obtain ⟨hcrew, hkept⟩ := step_crew hordinary hreader
    rw [List.replicate_succ, Crew.run, ← hcrew]
    cases hstep : session.step with
    | none =>
      have hstays : ∀ fuel, session.run fuel = session := by
        intro fuel
        cases fuel <;> simp [run, hstep]
      rw [hstays, Option.map_none, Option.getD_none, ← ih hsound hreader, hstays]
    | some next =>
      rw [hstep] at hcrew
      rw [run, hstep, Option.map_some, Option.getD_some]
      exact ih (hsound.step hcrew.symm) (hkept next hstep)

end Session

end SharedCell
