import Mathlib
import SharedCell.Proofs.Agenda.Attempt
import SharedCell.Proofs.Ownership.Calls

/-!
# Beginnings of operations

An operation that begins leaves the world sound with respect to the frame that it puts on the
agenda.  What it acquires, takes out of a table or begins to use is at stake in that frame.
-/

namespace SharedCell

variable {β : Type} [Resident β] {world next : World β} {stakes : Stakes} {thread : ℕ}

/-- A world after an operation has begun, and the frame that it leads to. -/
def Begun (stakes : Stakes) (next : World β) (frame : Frame) : Prop :=
  next.Sound (frame.stakes + stakes) ∧ frame.ordinary = true

/-! ## Chores -/

theorem stakes_endUses (ids : List ℕ) :
    ((ids.map Chore.endUse).map Chore.stakes).sum = .usesOf ids := by
  induction ids with
  | nil => rfl
  | cons id ids ih => rw [List.map_cons, List.map_cons, List.sum_cons, ih, Stakes.usesOf_cons]; rfl

theorem stakes_releases (units : List ObjectId) :
    ((units.map Chore.release).map Chore.stakes).sum = .unitsOn ↑units := by
  induction units with
  | nil => rfl
  | cons unit units ih =>
    rw [List.map_cons, List.map_cons, List.sum_cons, ih, ← Multiset.cons_coe,
      ← Multiset.singleton_add, Stakes.unitsOn_add]
    rfl

theorem stakes_delivery (target : Option String) (unit : Option ObjectId) :
    ((Operation.delivery target unit).map Chore.stakes).sum = .unitsOn ↑unit.toList := by
  cases unit <;> cases target <;> simp [Operation.delivery, Chore.stakes]

theorem ordinary_endUses (ids : List ℕ) : (ids.map Chore.endUse).all Chore.ordinary = true := by
  simp [Chore.ordinary]

theorem ordinary_releases (units : List ObjectId) :
    (units.map Chore.release).all Chore.ordinary = true := by
  simp [Chore.ordinary]

theorem ordinary_delivery (target : Option String) (unit : Option ObjectId) :
    (Operation.delivery target unit).all Chore.ordinary = true := by
  cases unit <;> cases target <;> rfl

/-- An operation that has its reply at once and changes nothing. -/
theorem begun_answer (hsound : world.Sound stakes) (reply : Reply) :
    Begun stakes world (.tidy [] reply) :=
  ⟨by simpa [Frame.stakes] using hsound, rfl⟩

/-! ## Using handles -/

namespace World

theorem Sound.useAll {ids : List ℕ} (hsound : world.Sound stakes)
    (hids : ∀ id ∈ ids, ∃ holder ∈ world.holders, holder.id = id ∧ holder.exclusive = false) :
    (ids.foldl (fun world id =>
      world.modifyHolder id fun holder => { holder with users := holder.users + 1 }) world).Sound
        (.usesOf ids + stakes) := by
  induction ids generalizing world stakes with
  | nil => simpa using hsound
  | cons id ids ih =>
    obtain ⟨holder, hholder, rfl, hshared⟩ := hids id List.mem_cons_self
    have hused := hsound.use hholder hshared
    rw [List.foldl_cons, Stakes.usesOf_cons, add_comm (Stakes.useOf _), add_assoc]
    apply ih hused
    intro id hid
    obtain ⟨other, hother, rfl, hfree⟩ := hids id (List.mem_cons_of_mem _ hid)
    by_cases hsame : other.id = holder.id
    · exact ⟨_, List.mem_map.mpr ⟨other, hother, if_pos hsame⟩, rfl, hfree⟩
    · exact ⟨_, List.mem_map.mpr ⟨other, hother, if_neg hsame⟩, rfl, hfree⟩

end World

namespace Attempt

/-- Handles that are used change in nothing but their number of users. -/
theorem use_run {found : List (Option Holder)} {ids : List ℕ} (hsound : world.Sound stakes)
    (hfound : ∀ holder, some holder ∈ found → holder ∈ world.holders ∧ holder.exclusive = false)
    (hrun : (use found : Attempt β (List ℕ)).run world = .ok (ids, next)) :
    next.Sound (.usesOf ids + stakes) ∧ ∃ holders, next = { world with holders } ∧
      ∀ holder, some holder ∈ found → holder.id ∈ ids ∧
        ∃ held ∈ holders, held.id = holder.id ∧ held.unit = holder.unit := by
  have hmodified := bind_modify hrun
  obtain ⟨rfl, rfl⟩ := run_pure.mp hmodified
  have hids : ∀ id ∈ found.filterMap (·.map (·.id)), ∃ holder, some holder ∈ found ∧
      holder.id = id := by
    intro id hid
    obtain ⟨holder, hholder, hmap⟩ := List.mem_filterMap.mp hid
    obtain ⟨holder, rfl, rfl⟩ := Option.map_eq_some_iff.mp hmap
    exact ⟨holder, hholder, rfl⟩
  constructor
  · apply hsound.useAll
    intro id hid
    obtain ⟨holder, hholder, rfl⟩ := hids id hid
    exact ⟨holder, (hfound holder hholder).1, rfl, (hfound holder hholder).2⟩
  · obtain ⟨holders, heq, hkept⟩ := exists_used world (found.filterMap (·.map (·.id)))
    refine ⟨holders, heq, ?_⟩
    intro holder hholder
    obtain ⟨held, hheld, hid, hunit, -⟩ := hkept holder (hfound holder hholder).1
    exact ⟨List.mem_filterMap.mpr ⟨some holder, hholder, rfl⟩, held, hheld, hid, hunit⟩

end Attempt

end SharedCell
