import Mathlib
import SharedCell.Proofs.Crew.Units

/-!
# Contents of atomic cells

An atomic cell holds nothing that its guard would reject now, whenever the guard was asked and
however the cell came to be.  A payload cannot change under a guard that reads it, since nothing
gets hold of the payload of an object that has another unit.
-/

namespace SharedCell

variable {β : Type} [Resident β]

namespace Guard

/-- The guards that there are names for, the one of cells made by default included. -/
theorem steadfast_known : ∀ guard ∈ standard :: custom, guard.Steadfast := by
  intro guard hguard
  rcases List.mem_cons.mp hguard with rfl | hcustom
  · exact steadfast_standard
  · exact steadfast_custom guard hcustom

end Guard

namespace Crew

/-- Atomic cells hold what their guards accept. -/
structure Guarded (crew : Crew β) : Prop where
  accepted : ∀ name cell obj, (name, cell) ∈ crew.world.cells → cell.kind = .atomic →
    cell.slot.content = some obj →
      cell.guard.Steadfast ∨ cell.guard ∈ Guard.standard :: Guard.custom →
        ∃ object, crew.world.object? obj = some object ∧ object.destroyed = false ∧
          cell.guard.accepts (Resident.facts object.body) = true
  shareable : ∀ name cell obj, (name, cell) ∈ crew.world.cells → cell.kind = .atomic →
    cell.slot.content = some obj → cell.guard = .standard →
      ∃ object, crew.world.object? obj = some object ∧
        (Counted.isFrozen object.body = true ∨ Counted.isPermanent object.body = true)

theorem Sound.accepted {crew : Crew β} {name : String} {cell : Cell} {obj : ObjectId}
    (hsound : crew.Sound) (hcell : (name, cell) ∈ crew.world.cells) (hkind : cell.kind = .atomic)
    (hcontent : cell.slot.content = some obj) (hsteadfast : cell.guard.Steadfast) :
    ∃ object, crew.world.object? obj = some object ∧ object.destroyed = false ∧
      cell.guard.accepts (Resident.facts object.body) = true := by
  have howned := World.owned_of_content hcell hcontent
  obtain ⟨object, hobject, hlive, -⟩ := hsound.world.live (Multiset.mem_add.mpr (.inl howned))
  have haccepts := (hsound.world.housed.sound name cell hcell).content hkind hsteadfast obj hcontent
  rw [World.facts, hobject] at haccepts
  exact ⟨object, hobject, hlive, haccepts⟩

theorem Sound.guarded {crew : Crew β} (hsound : crew.Sound) : crew.Guarded where
  accepted name cell obj hcell hkind hcontent hguard := by
    apply hsound.accepted hcell hkind hcontent
    rcases hguard with hsteadfast | hknown
    · exact hsteadfast
    · exact Guard.steadfast_known cell.guard hknown
  shareable name cell obj hcell hkind hcontent hguard := by
    obtain ⟨object, hobject, -, haccepts⟩ :=
      hsound.accepted hcell hkind hcontent (hguard ▸ Guard.steadfast_standard)
    rw [hguard] at haccepts
    exact ⟨object, hobject, (Bool.or_eq_true_iff.mp haccepts).symm⟩

/-- However threads that perform ordinary operations interleave, what an atomic cell holds is
accepted by its guard at this moment, if the guard goes on accepting what is frozen.  With the guard
of cells made by default it is frozen or permanent. -/
theorem run_guarded [Lawful β] {programs : List (List Operation)}
    (hordinary : ∀ ops ∈ programs, Operation.ordinaryAll ops = true) (schedule : List ℕ) :
    ((start programs : Crew β).run schedule).Guarded :=
  ((start_sound hordinary).run schedule).guarded

/-- An attempt to change the payload of an object that a cell holds because the payload is even. -/
def tampering : List (List Operation) :=
  [[.alloc (some "a") (some (.int 2)) (some .mutable) [] [],
    .newCell (some "c") (.given .evenPayload) (.named "a") (some (some .atomic)) (some .value) none,
    .mutate (some (.int 3)) (some "a")]]

theorem run_guarded_tampering : (∀ ops ∈ tampering, Operation.ordinaryAll ops = true) ∧
    (((start tampering : Crew Staged).run (List.replicate 12 0)).world.facts 0).payload.isEven =
      true ∧
    ((start tampering : Crew Staged).run (List.replicate 12 0)).Guarded :=
  ⟨by decide, by decide +kernel, run_guarded (by decide) (List.replicate 12 0)⟩

end Crew

end SharedCell
