import Mathlib
import SharedCell.Proofs.Agenda.Opening
import SharedCell.Proofs.Slot.Register

/-!
# Registers

What a cell is to a program is its register: the content and the number of its replacements.  Most
of what a thread does leaves all registers alone, and so does every step of a call but the one that
stores.
-/

namespace SharedCell

variable {β : Type}

/-! ## Cells by name -/

namespace World

/-- The register of a cell, if there is a cell of that name. -/
def register? (world : World β) (name : String) : Option Register :=
  (world.cell? name).map (·.slot.register)

variable {world next : World β} {name other : String}

theorem register?_congr (hcells : next.cells = world.cells) :
    next.register? name = world.register? name := by
  rw [register?, register?, cell?, cell?, hcells]

theorem register?_of_cell {cell : Cell} (hcell : world.cell? name = some cell) :
    world.register? name = some cell.slot.register := by
  rw [register?, hcell, Option.map_some]

theorem cell?_modifyCell_of_ne (hne : other ≠ name) (change : Cell → Cell) :
    (world.modifyCell name change).cell? other = world.cell? other := by
  rw [cell?, cell?, modifyCell]
  dsimp only
  induction world.cells with
  | nil => rfl
  | cons entry entries ih =>
    obtain ⟨found, cell⟩ := entry
    by_cases hfound : found = name
    · subst hfound
      simpa [List.lookup_cons, beq_false_of_ne hne] using ih
    · cases hother : other == found <;> simp [List.lookup_cons, hfound, hother, ih]

theorem cell?_addCell_of_ne (hne : other ≠ name) (cell : Cell) :
    (world.addCell name cell).cell? other = world.cell? other := by
  rw [cell?, addCell, List.lookup_cons, beq_false_of_ne hne]
  rfl

theorem cell?_eraseCell_of_ne (hne : other ≠ name) :
    (world.eraseCell name).cell? other = world.cell? other := by
  rw [cell?, cell?, eraseCell]
  dsimp only
  induction world.cells with
  | nil => rfl
  | cons entry entries ih =>
    obtain ⟨found, cell⟩ := entry
    by_cases hfound : found = name
    · subst hfound
      simpa [List.lookup_cons, beq_false_of_ne hne] using ih
    · cases hother : other == found <;> simp [List.lookup_cons, hfound, hother, ih]

/-- A change to a cell that its register does not show. -/
theorem register?_modifyCell {change : Cell → Cell}
    (hchange : ∀ cell, world.cell? name = some cell →
      (change cell).slot.register = cell.slot.register) (other : String) :
    (world.modifyCell name change).register? other = world.register? other := by
  by_cases hname : other = name
  · subst hname
    unfold register?
    cases hcell : world.cell? other with
    | none =>
      have hnone : (world.modifyCell other change).cell? other = none := by
        rw [cell?, List.lookup_eq_none_iff] at hcell ⊢
        intro entry hentry
        obtain ⟨⟨found, cell⟩, hfound, rfl⟩ := List.mem_map.mp hentry
        have hne := hcell _ hfound
        dsimp only
        split <;> exact hne
      rw [hnone]
    | some cell => rw [cell?_modifyCell hcell, Option.map_some, Option.map_some, hchange cell hcell]
  · rw [register?, cell?_modifyCell_of_ne hname, register?]

end World

/-! ## What leaves the cells alone -/

section Resident

variable [Resident β] {world next : World β} {thread : ℕ}

namespace World

theorem cells_release (world : World β) (thread : ℕ) (obj : ObjectId) :
    (world.release thread obj).cells = world.cells := by
  rw [release_eq]
  rfl

theorem cells_letGo (world : World β) (thread : ℕ) (unit : ObjectId) :
    (world.letGo thread unit).1.cells = world.cells :=
  world.cells_release thread unit

theorem cells_letGo? (world : World β) (thread : ℕ) (unit : Option ObjectId) :
    (world.letGo? thread unit).1.cells = world.cells := by
  cases unit with
  | none => rfl
  | some unit => exact world.cells_letGo thread unit

omit [Resident β] in
theorem cells_trace (world : World β) (thread : ℕ) (event : Event) :
    (world.trace thread event).cells = world.cells := by
  obtain ⟨log, htraced⟩ := world.exists_traced thread event
  rw [htraced]

omit [Resident β] in
theorem cells_ask (world : World β) (thread : ℕ) (guard : Guard) (obj : ObjectId) :
    (world.ask thread guard obj).cells = world.cells := by
  obtain ⟨log, hasked⟩ := world.exists_asked thread guard obj
  rw [hasked]

omit [Resident β] in
theorem cells_store (world : World β) (name : String) (unit : ObjectId) :
    (world.store name unit).1.cells = world.cells := by
  obtain ⟨holders, nextHolder, hstored⟩ := world.exists_stored name unit
  rw [hstored]

omit [Resident β] in
theorem cells_endUse (world : World β) (holder : ℕ) :
    (world.endUse holder).1.cells = world.cells := by
  obtain ⟨holders, hended⟩ := world.exists_endUsed holder
  rw [hended]

omit [Resident β] in
theorem cells_takeRef {owner ref : ObjectId} (htake : world.takeRef owner = some (next, ref)) :
    next.cells = world.cells := by
  obtain ⟨object, refs, -, -, rfl⟩ := takeRef_eq_some htake
  rfl

end World

theorem Call.cells_affect (world : World β) (thread : ℕ) (guard : Guard) (effect : Option Effect) :
    (affect world thread guard effect).1.cells = world.cells := by
  cases effect with
  | none => rfl
  | some effect =>
    cases effect with
    | acquire obj => rfl
    | release obj => exact world.cells_letGo thread obj
    | ask obj => exact world.cells_ask thread guard obj
    | reject obj => exact world.cells_trace thread _
    | retry | wait => exact world.cells_trace thread _

/-- An operation only stops using its cell. -/
theorem Chore.register?_perform (chore : Chore) (thread : ℕ) (world : World β) (name : String) :
    (chore.perform thread world).1.register? name = world.register? name := by
  cases chore with
  | release unit => exact World.register?_congr (world.cells_letGo thread unit)
  | store target unit =>
    exact World.register?_congr
      ((World.cells_letGo? _ thread _).trans (world.cells_store target unit))
  | endUse holder =>
    exact World.register?_congr ((World.cells_letGo? _ thread _).trans (world.cells_endUse holder))
  | leaveCell cell =>
    exact World.register?_modifyCell (fun found _ => by rw [Cell.leave_slot]) name
  | join => rfl
  | resume => rfl

end Resident

/-! ## Calls -/

theorem Phase.not_stores_of_idle {phase : Phase} (hidle : phase.Idle) : phase.stores ≠ true := by
  cases phase <;> simp_all [Phase.Idle, stores, holdsLock]

theorem Stage.register_step {kind : CellKind} {guard : Guard} {action : Action}
    {facts : ObjectId → Facts} {shape : Text.Layout → ObjectId → Text.Shape} {slot next : Slot}
    {stage later : Stage} {effect : Option Effect}
    (hstep : stage.step kind guard action facts shape slot = some (next, later, effect))
    (hstores : stage.phase.stores = false) : next.register = slot.register := by
  rcases step_phase hstep with hphase | ⟨rfl, -, -⟩
  · exact Phase.register_step hphase hstores
  · rfl

end SharedCell
