import Mathlib
import SharedCell.Proofs.Crew.Units
import SharedCell.Proofs.Twins.Crews

/-!
# Heaps that cannot be told apart

The same operations on staged and on flagged objects go in step.  A staged object keeps its state in
one of three stages and has a count that stops at zero, a flagged one has a flag and an integer;
but as long as no object is permanent and nothing is asked that only one of the heaps offers, they
show the same facts and the same counts, and their last unit is released at the same moment.
-/

namespace SharedCell

namespace Crew

variable {β γ : Type} [Resident β] [Resident γ]

/-- What cannot be told apart in two crews.  Their threads have the same to do and the same replies
so far, and the same threads can make a step; the same can be seen of every object and of every
cell; and the same happened in the same order, what was destroyed and what guards were asked and the
replies to the scripts of destroyed objects included. -/
structure Level (left : Crew β) (right : Crew γ) : Prop where
  agendas : right.agendas = left.agendas
  steps (thread : ℕ) : right.step thread = none ↔ left.step thread = none
  seen : right.world.snapshot = left.world.snapshot
  facts : right.world.facts = left.world.facts
  cells : right.world.cells = left.world.cells
  holders : right.world.holders = left.world.holders
  raws : right.world.raws = left.world.raws
  log : right.world.log = left.world.log
  told : right.world.told = left.world.told

end Crew

/-! ## Staged and flagged objects -/

/-- The same object on the two heaps. -/
structure Flagged.Matches (body : Staged) (other : Flagged) : Prop where
  counted : body.stage ≠ .permanent
  frozen : other.frozen = (body.stage == .frozen)
  count : other.count = body.count
  payload : other.payload = body.payload

namespace Flagged.Matches

variable {body : Staged} {other : Flagged}

theorem facts (hmatches : Matches body other) : Resident.facts other = Resident.facts body := by
  have hpermanent : (body.stage == .permanent) = false := beq_eq_false_iff_ne.mpr hmatches.counted
  simp [Resident.facts, Counted.isFrozen, Counted.isPermanent, Resident.payload, hmatches.frozen,
    hmatches.payload, hpermanent]

theorem acquire (hmatches : Matches body other) : Matches body.acquire other.acquire := by
  rw [Staged.acquire, if_neg hmatches.counted]
  refine { hmatches with count := ?_ }
  rw [Flagged.acquire, hmatches.count]
  push_cast
  rfl

/-- A count that stops at zero and one that does not are the same as long as there are units. -/
theorem release (hmatches : Matches body other) (hpos : 1 ≤ body.count) :
    Matches body.release.1 other.release.1 ∧ other.release.2 = body.release.2 := by
  rw [Staged.release, if_neg hmatches.counted, Flagged.release, hmatches.count]
  refine ⟨{ hmatches with count := ?_ }, ?_⟩
  · push_cast [Nat.cast_sub hpos]
    rfl
  · rw [Bool.eq_iff_iff, beq_iff_eq, beq_iff_eq]
    exact Nat.cast_eq_one

theorem freeze (hmatches : Matches body other) :
    Matches body.freeze { other with frozen := true } := by
  rw [Staged.freeze]
  cases hstage : body.stage with
  | mutable =>
    rw [if_pos rfl]
    exact { hmatches with counted := by simp, frozen := rfl }
  | frozen =>
    rw [if_neg (by simp)]
    exact { hmatches with frozen := by simp [hstage] }
  | permanent => exact absurd hstage hmatches.counted

theorem make {mutability : Mutability} (payload : Payload) (hcounted : mutability ≠ .permanent) :
    ∃ body other, (Resident.make mutability payload : Option Staged) = some body ∧
      (Resident.make mutability payload : Option Flagged) = some other ∧ Matches body other := by
  cases mutability with
  | mutable => exact ⟨_, _, rfl, rfl, by simp [Staged.make], rfl, rfl, rfl⟩
  | frozen => exact ⟨_, _, rfl, rfl, by simp [Staged.make], rfl, rfl, rfl⟩
  | permanent => exact absurd rfl hcounted

end Flagged.Matches

/-- What a world of staged objects and one of flagged objects have in common. -/
def heaps : Bond Staged Flagged where
  bodies := Flagged.Matches
  cells _ cell other := other = cell
  full := false
  hidden := none
  logged := true
  facts hmatches := hmatches.facts
  count hmatches := hmatches.count
  acquire hmatches := hmatches.acquire
  release {body _} hmatches hunits := by
    have hpos : (1 : ℤ) ≤ body.count :=
      hunits.resolve_left (by simpa [Counted.isPermanent] using hmatches.counted)
    exact hmatches.release (Int.ofNat_le.mp hpos)
  freeze hmatches := hmatches.freeze
  make _ payload hcounted :=
    .inr (Flagged.Matches.make payload (hcounted.resolve_left Bool.false_ne_true))
  setPayload _ hfull := absurd hfull Bool.false_ne_true
  isMutable hfull := absurd hfull Bool.false_ne_true
  shape _ hfull := absurd hfull Bool.false_ne_true
  offer hfull := absurd hfull Bool.false_ne_true
  same _ := Iff.rfl
  slot heq := heq ▸ rfl
  guard heq := heq ▸ rfl
  write _ heq := heq ▸ rfl
  leave _ heq := heq ▸ rfl

/-- The same can be seen in worlds that go in step. -/
theorem Bond.Pairs.snapshot {left : World Staged} {right : World Flagged}
    (hpairs : heaps.Pairs left right) :
    right.cells = left.cells ∧ right.snapshot = left.snapshot := by
  have hcells : right.cells = left.cells := hpairs.cells_eq fun _ _ _ hcell => hcell
  have hcounts : (right.objects.toList.map fun object =>
        (object.name, if object.destroyed then none else some (Resident.count object.body))) =
      left.objects.toList.map fun object =>
        (object.name, if object.destroyed then none else some (Resident.count object.body)) := by
    apply List.ext_getElem?
    intro obj
    rw [List.getElem?_map, List.getElem?_map, Array.getElem?_toList, Array.getElem?_toList]
    rcases hpairs.objects obj with ⟨hleft, hright⟩ | ⟨object, other, hleft, hright, halike⟩
    · rw [show left.objects[obj]? = none from hleft, show right.objects[obj]? = none from hright]
      rfl
    · rw [show left.objects[obj]? = _ from hleft, show right.objects[obj]? = _ from hright,
        Option.map_some, Option.map_some, halike.name, halike.destroyed, heaps.count halike.body]
  refine ⟨hcells, ?_⟩
  rw [World.snapshot, World.snapshot, hcells, hcounts]

namespace Crew

theorem Paired.level {left : Crew Staged} {right : Crew Flagged} (hpaired : Paired heaps left right)
    (hsound : left.Sound) : Level left right where
  agendas := hpaired.agendas
  steps := hpaired.stuck_iff hsound
  seen := hpaired.worlds.snapshot.2
  facts := hpaired.worlds.facts
  cells := hpaired.worlds.snapshot.1
  holders := hpaired.worlds.holders
  raws := hpaired.worlds.raws
  log := hpaired.worlds.log rfl
  told := hpaired.worlds.told

/-- However threads interleave that perform operations which both heaps have, on staged objects and
on flagged objects they go in step. -/
theorem run_level {programs : List (List Operation)}
    (hsuits : ∀ ops ∈ programs, Operation.suitsAll false none ops = true) (schedule : List ℕ)
    (htimely : (start programs : Crew Staged).Timely schedule) :
    Level ((start programs : Crew Staged).run schedule)
      ((start programs : Crew Flagged).run schedule) := by
  have hsound : (start programs : Crew Staged).Sound :=
    start_sound fun ops hops => Operation.ordinaryAll_of_suitsAll ops (hsuits ops hops)
  have hpaired : Paired heaps (start programs) (start programs) := start_paired rfl hsuits
  exact (hpaired.run hsound schedule (.inr htimely)).level (hsound.run schedule)

/-- One thread destroys an object that owns a unit on what the slot holds and whose script empties
the slot; the other compares the slot's content with an address. -/
def bequest : List (List Operation) :=
  [[.alloc (some "a") (some (.int 1)) (some .frozen) [] [],
    .alloc (some "b") (some (.int 2)) (some .mutable) [some "a"]
      [.onCell (some "c") .assign .empty .empty none],
    .newCell (some "c") .absent (.named "a") (some (some .slot)) (some .value) none,
    .drop (some "b")],
   [.onCell (some "c") .swap .empty (.named "@a") none]]

/-- The object is being destroyed while the other thread's call is in progress. -/
def interlaced : List ℕ :=
  List.replicate 10 0 ++ List.replicate 4 1 ++ List.replicate 20 0 ++ List.replicate 10 1 ++
    List.replicate 10 0

theorem run_level_bequest : (∀ ops ∈ bequest, Operation.suitsAll false none ops = true) ∧
    (start bequest : Crew Staged).Timely interlaced ∧
      ((start bequest : Crew Staged).run interlaced).world.destroyed = [1] ∧
        Level ((start bequest : Crew Staged).run interlaced)
          ((start bequest : Crew Flagged).run interlaced) :=
  have htimely : (start bequest : Crew Staged).Timely interlaced := by decide +kernel
  ⟨by decide, htimely, by decide +kernel, run_level (by decide) interlaced htimely⟩

end Crew

end SharedCell
