import Mathlib
import SharedCell.Proofs.Crew.Run

/-!
# Units of a crew

No thread ever touches the count of a dead object, and no unit is ever lost or used twice, in
whatever order threads make their steps.  A reader that stalls between copying a content and
acquiring a unit on it is safe because the content is still in the slot or is in the hand of the
call that displaced it, which waits for the reader's pin.
-/

namespace SharedCell

variable {β : Type} [Resident β]

/-- An object that is not destroyed and, unless it is permanent, counts a unit. -/
def World.Live (world : World β) (obj : ObjectId) : Prop :=
  ∃ object, world.object? obj = some object ∧ object.destroyed = false ∧
    (Counted.isPermanent object.body = true ∨ 1 ≤ Resident.count object.body)

/-- What the next step of a call does besides its access to the slot. -/
def Call.effect? (world : World β) (call : Call) : Option Effect := do
  let cell ← world.cell? call.cell
  let (_, _, effect) ←
    call.stage.step cell.kind cell.guard call.action world.facts world.shape cell.slot
  effect

namespace World.Sound

variable {world : World β} {stakes : Stakes} {obj : ObjectId}

/-- Where there is a unit, there is an object. -/
theorem live (hsound : world.Sound stakes) (hunit : obj ∈ world.owned + stakes.inHand) :
    world.Live obj :=
  hsound.books.live hunit

/-- The object that a call acquires a unit on, or releases one on, is there. -/
theorem live_of_effect {call : Call} (hsound : world.Sound stakes) (hcall : call ∈ stakes.calls)
    (heffect : call.effect? world = some (.acquire obj) ∨
      call.effect? world = some (.release obj)) : world.Live obj := by
  have hstep : ∃ cell slot stage effect, (call.cell, cell) ∈ world.cells ∧
      call.stage.step cell.kind cell.guard call.action world.facts world.shape cell.slot =
        some (slot, stage, some effect) ∧ (effect = .acquire obj ∨ effect = .release obj) := by
    rcases heffect with heffect | heffect
    all_goals
      unfold Call.effect? at heffect
      simp only [Option.bind_eq_bind, Option.bind_eq_some_iff] at heffect
      obtain ⟨cell, hcell, ⟨slot, stage, effect⟩, hstage, rfl⟩ := heffect
      refine ⟨cell, slot, stage, _, mem_of_lookup hcell, hstage, by simp⟩
  obtain ⟨cell, slot, stage, effect, hcell, hstage, rfl | rfl⟩ := hstep
  · exact hsound.live (hsound.owned_of_acquired hcall hcell hstage)
  · have hfits := (hsound.housed.sound call.cell cell hcell).fits call
      (Stakes.mem_callsOn.mpr ⟨hcall, rfl⟩)
    have hunits := Stage.step_units hfits hstage
    have hmem : obj ∈ (call.stage.units : Multiset ObjectId) + cell.slot.units := by
      have hlost : obj ∈ (stage.units : Multiset ObjectId) + slot.units +
          Effect.losses (some (.release obj)) := by
        simp [Effect.losses]
      rw [hunits] at hlost
      simpa [Effect.gains] using hlost
    apply hsound.live
    rcases Multiset.mem_add.mp hmem with hunit | hcontent
    · rw [Multiset.mem_add, Stakes.inHand, Multiset.mem_add]
      exact .inr (.inr (Multiset.mem_bind.mpr ⟨call, hcall, hunit⟩))
    · rw [Multiset.mem_add]
      exact .inl (owned_of_content hcell (Slot.mem_units.mp hcontent))

end World.Sound

namespace Crew

/-! ## Live objects -/

/-- Nothing dead is touched: neither by the next step of a call nor by whoever has a unit in hand,
and it was not by anything that is logged. -/
structure Lively (crew : Crew β) : Prop where
  touched : ∀ call obj, .call call ∈ crew.agendas.flatten →
    call.effect? crew.world = some (.acquire obj) ∨
      call.effect? crew.world = some (.release obj) → crew.world.Live obj
  inHand : ∀ obj ∈ crew.stakes.inHand, crew.world.Live obj
  logged : ∀ later thread obj count earlier,
    crew.world.log = later ++ (thread, .acquired obj count) :: earlier ∨
      crew.world.log = later ++ (thread, .released obj count) :: earlier →
    obj ∉ destroyedIn earlier ∧ ∃ object, crew.world.object? obj = some object ∧
      (Counted.isPermanent object.body = true ∨ 1 ≤ count)

theorem Sound.lively {crew : Crew β} (hsound : crew.Sound) : crew.Lively where
  touched call obj hcall heffect :=
    hsound.world.live_of_effect (Stakes.mem_calls_of_mem hcall) heffect
  inHand obj hunit := hsound.world.live (Multiset.mem_add.mpr (.inr hunit))
  logged later thread obj count earlier hlog := by
    have hbooks := hsound.world.books
    constructor
    · have horderly := hbooks.chronicle.orderly
      rcases hlog with hlog | hlog
      all_goals
        rw [hlog] at horderly
        exact horderly.suffix.2.2
    · apply hbooks.found thread obj count
      rcases hlog with hlog | hlog
      · exact .inl (by simp [hlog])
      · exact .inr (by simp [hlog])

/-- However threads that perform ordinary operations interleave, every object that a unit is
acquired or released on is live at that moment. -/
theorem run_lively [Lawful β] {programs : List (List Operation)}
    (hordinary : ∀ ops ∈ programs, Operation.ordinaryAll ops = true) (schedule : List ℕ) :
    ((start programs : Crew β).run schedule).Lively :=
  ((start_sound hordinary).run schedule).lively

/-- While the first thread reads a cell whose content it has given up, the second one replaces the
content. -/
def handover : List (List Operation) :=
  [[.alloc (some "a") (some (.int 1)) (some .frozen) [] [],
      .newCell (some "c") .absent (.named "a") (some (some .atomic)) (some .value) none,
      .drop (some "a"),
      .onCell (some "c") .get .empty .empty (some "x")],
    [.alloc (some "b") (some (.int 2)) (some .frozen) [] [],
      .onCell (some "c") .set (.named "b") .empty none]]

/-- The reader stops before it acquires its unit, and the writer goes on until it waits for it. -/
def stalled : List ℕ :=
  List.replicate 12 0 ++ List.replicate 10 1

theorem run_lively_stalled : (∀ ops ∈ handover, Operation.ordinaryAll ops = true) ∧
    ((start handover : Crew Staged).run stalled).world.count 0 = 1 ∧
      ((start handover : Crew Staged).run stalled).Lively :=
  ⟨by decide, by decide +kernel, run_lively (by decide) stalled⟩

/-! ## Owners -/

/-- The owners of units on an object: handles, raw units, cells, objects that have not given up
their references, and operations in progress. -/
def owners (crew : Crew β) (obj : ObjectId) : ℕ :=
  (crew.world.holders.map Holder.unit).count obj + (crew.world.raws.map Prod.snd).count obj +
    crew.world.cells.countP (·.2.slot.content = some obj) +
    (crew.world.objects.toList.map (·.refs.count obj)).sum + crew.stakes.inHand.count obj

omit [Resident β] in
theorem sum_contents (cells : List (String × Cell)) (obj : ObjectId) :
    (cells.map fun entry => entry.2.slot.units.count obj).sum =
      cells.countP (·.2.slot.content = some obj) := by
  induction cells with
  | nil => rfl
  | cons entry cells ih =>
    rw [List.map_cons, List.sum_cons, ih, List.countP_cons, add_comm, Slot.units,
      Multiset.coe_count]
    congr 1
    cases entry.2.slot.content <;> simp [List.count_singleton]

omit [Resident β] in
theorem owners_eq (crew : Crew β) (obj : ObjectId) :
    crew.owners obj = (crew.world.owned + crew.stakes.inHand).count obj := by
  simp only [owners, World.owned, Multiset.count_add, Multiset.count_bind, Multiset.map_coe,
    Multiset.sum_coe, Multiset.coe_count, sum_contents]

/-- Every unit has an owner, and an object is destroyed by the release of its last unit and by
nothing else. -/
structure Balanced (crew : Crew β) : Prop where
  counted : ∀ obj object, crew.world.object? obj = some object →
    Counted.isPermanent object.body = false →
      Resident.count object.body = crew.owners obj ∧
        (object.destroyed = true ↔ crew.owners obj = 0)
  permanent : ∀ obj object, crew.world.object? obj = some object →
    Counted.isPermanent object.body = true →
      Resident.count object.body = 0 ∧ object.destroyed = false
  owned : ∀ obj, crew.owners obj ≠ 0 →
    ∃ object, crew.world.object? obj = some object ∧ object.destroyed = false
  destroyed : ∀ obj, obj ∈ destroyedIn crew.world.log ↔
    ∃ object, crew.world.object? obj = some object ∧ object.destroyed = true
  once : (destroyedIn crew.world.log).Nodup
  /-- A destruction comes directly after the release that found one unit. -/
  caused : ∀ later thread obj earlier,
    crew.world.log = later ++ (thread, .destroyed obj) :: earlier →
      ∃ before, earlier = (thread, .released obj 1) :: before
  /-- A release that found one unit comes directly before a destruction. -/
  noticed : ∀ later thread obj earlier,
    crew.world.log = later ++ (thread, .released obj 1) :: earlier →
      ∃ after, later = after ++ [(thread, .destroyed obj)]

theorem Sound.balanced {crew : Crew β} (hsound : crew.Sound) : crew.Balanced := by
  have hbooks := hsound.world.books
  have hchronicle := hbooks.chronicle
  constructor
  case counted =>
    intro obj object hobject hcounted
    rw [owners_eq]
    exact (Object.squares_counted hcounted).mp (hbooks.squares obj object hobject)
  case permanent =>
    intro obj object hobject hpermanent
    exact (Object.squares_permanent hpermanent).mp (hbooks.squares obj object hobject)
  case owned =>
    intro obj hne
    rw [owners_eq, Multiset.count_ne_zero] at hne
    obtain ⟨object, hobject, hlive, -⟩ := hbooks.live hne
    exact ⟨object, hobject, hlive⟩
  case destroyed => exact hbooks.destroyed
  case once => exact hchronicle.orderly.nodup_destroyedIn
  case caused =>
    intro later thread obj earlier hlog
    have horderly := hchronicle.orderly
    rw [hlog] at horderly
    exact horderly.suffix.2.2.2
  case noticed =>
    intro later thread obj earlier hlog
    have horderly := hchronicle.orderly
    rw [hlog] at horderly
    refine horderly.noticed fun hnone => ?_
    rw [hnone] at hlog
    exact hchronicle.settled thread obj earlier hlog

/-- However threads that perform ordinary operations interleave, the count of an object is the
number of the owners of its units, and the object is destroyed when there is none.  It is never
revived, and a permanent object stays permanent. -/
theorem run_balanced [Lawful β] {programs : List (List Operation)}
    (hordinary : ∀ ops ∈ programs, Operation.ordinaryAll ops = true)
    (schedule further : List ℕ) :
    ((start programs : Crew β).run schedule).Balanced ∧
      ((start programs : Crew β).run schedule).world.Persists
        ((start programs : Crew β).run (schedule ++ further)).world := by
  have hsound := (start_sound hordinary : (start programs : Crew β).Sound).run schedule
  refine ⟨hsound.balanced, ?_⟩
  rw [run_append]
  exact hsound.persists further

theorem run_balanced_handover : (∀ ops ∈ handover, Operation.ordinaryAll ops = true) ∧
    ((start handover : Crew Staged).run stalled).owners 0 = 1 ∧
      ((start handover : Crew Staged).run stalled).Balanced ∧
        ((start handover : Crew Staged).run stalled).world.Persists
          ((start handover : Crew Staged).run (stalled ++ [0, 0, 1, 1])).world :=
  ⟨by decide, by decide +kernel, run_balanced (by decide) stalled [0, 0, 1, 1]⟩

end Crew

end SharedCell
