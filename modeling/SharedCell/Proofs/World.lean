import Mathlib
import SharedCell.Agenda.Step
import SharedCell.Proofs.Places

/-!
# What changes to a world leave alone

What is logged shows in the log only, what becomes of a handle shows in the table of handles, and
what becomes of a cell in the table of cells.
-/

namespace SharedCell

variable {β : Type}

namespace World

variable {world next : World β}

/-! ## The log -/

theorem exists_traced (world : World β) (thread : ℕ) (event : Event) :
    ∃ log, world.trace thread event = { world with log } := by
  unfold trace
  split <;> exact ⟨_, rfl⟩

theorem exists_asked (world : World β) (thread : ℕ) (guard : Guard) (obj : ObjectId) :
    ∃ log, world.ask thread guard obj = { world with log } := by
  unfold ask
  split
  · exact world.exists_traced thread _
  · exact ⟨_, rfl⟩

/-! ## Handles -/

theorem exists_stored (world : World β) (name : String) (unit : ObjectId) :
    ∃ holders nextHolder, (world.store name unit).1 = { world with holders, nextHolder } := by
  unfold store
  split
  · exact ⟨_, _, rfl⟩
  · split <;> exact ⟨_, _, rfl⟩

theorem exists_endUsed (world : World β) (id : ℕ) :
    ∃ holders, (world.endUse id).1 = { world with holders } := by
  unfold endUse
  split
  · exact ⟨_, rfl⟩
  · split <;> exact ⟨_, rfl⟩

/-! ## References -/

theorem takeRef_eq_some {owner ref : ObjectId} (htake : world.takeRef owner = some (next, ref)) :
    ∃ object refs, world.object? owner = some object ∧ object.refs = ref :: refs ∧
      next = world.modifyObject owner ({ · with refs }) := by
  unfold takeRef at htake
  split at htake
  · rename_i first refs hrefs
    obtain ⟨object, hobject, hrefs⟩ := Option.map_eq_some_iff.mp hrefs
    obtain ⟨rfl, rfl⟩ := Prod.mk.inj (Option.some.inj htake)
    exact ⟨object, refs, hobject, hrefs, rfl⟩
  · cases htake

/-! ## Cells -/

theorem cell?_modifyCell {name : String} {cell : Cell} {change : Cell → Cell}
    (hcell : world.cell? name = some cell) :
    (world.modifyCell name change).cell? name = some (change cell) := by
  obtain ⟨before, after, hcells, hothers⟩ := List.lookup_eq_some_iff.mp hcell
  rw [cell?, modifyCell, hcells, List.map_append, List.map_cons]
  dsimp only
  rw [if_pos rfl]
  refine List.lookup_eq_some_iff.mpr ⟨_, _, rfl, ?_⟩
  intro entry hentry
  obtain ⟨⟨other, found⟩, hfound, rfl⟩ := List.mem_map.mp hentry
  have hne := hothers _ hfound
  dsimp only
  split <;> exact hne

theorem modifyCell_modifyCell (world : World β) (name : String) (first second : Cell → Cell) :
    (world.modifyCell name first).modifyCell name second =
      world.modifyCell name fun cell => second (first cell) := by
  unfold modifyCell
  congr 1
  rw [List.map_map]
  apply List.map_congr_left
  rintro ⟨other, cell⟩ -
  by_cases hsame : other = name <;> simp [hsame]

theorem names_modifyCell (world : World β) (name : String) (change : Cell → Cell) :
    (world.modifyCell name change).cells.map Prod.fst = world.cells.map Prod.fst := by
  rw [modifyCell, List.map_map]
  apply List.map_congr_left
  rintro ⟨other, cell⟩ -
  by_cases hsame : other = name <;> simp [hsame]

/-- Only what becomes of the cell that is there matters. -/
theorem modifyCell_congr {name : String} {cell : Cell} {change alter : Cell → Cell}
    (hnames : (world.cells.map Prod.fst).Nodup)
    (hcell : world.cell? name = some cell) (hsame : change cell = alter cell) :
    world.modifyCell name change = world.modifyCell name alter := by
  unfold modifyCell
  congr 1
  apply List.map_congr_left
  rintro ⟨other, found⟩ hmem
  by_cases hname : other = name
  · subst hname
    obtain rfl := Option.some.inj ((lookup_of_mem hnames hmem).symm.trans hcell)
    simp [hsame]
  · simp [hname]

theorem modifyCell_self {name : String} {cell : Cell} {change : Cell → Cell}
    (hnames : (world.cells.map Prod.fst).Nodup) (hcell : world.cell? name = some cell)
    (hself : change cell = cell) :
    world.modifyCell name change = world := by
  have hkept : world.modifyCell name change = world.modifyCell name id :=
    modifyCell_congr hnames hcell hself
  rw [hkept, modifyCell]
  congr 1
  conv_rhs => rw [← List.map_id world.cells]
  apply List.map_congr_left
  rintro ⟨other, found⟩ -
  by_cases hname : other = name <;> simp [hname]

end World

/-- The world in which handles are used once more each. -/
theorem exists_used (world : World β) (ids : List ℕ) :
    ∃ holders, ids.foldl (fun world id => world.modifyHolder id fun holder =>
        { holder with users := holder.users + 1 }) world = { world with holders } ∧
      ∀ holder ∈ world.holders, ∃ held ∈ holders,
        held.id = holder.id ∧ held.unit = holder.unit ∧ held.exclusive = holder.exclusive := by
  induction ids generalizing world with
  | nil => exact ⟨world.holders, rfl, fun holder hholder => ⟨holder, hholder, rfl, rfl, rfl⟩⟩
  | cons id ids ih =>
    obtain ⟨holders, heq, hkept⟩ := ih (world.modifyHolder id fun holder =>
      { holder with users := holder.users + 1 })
    refine ⟨holders, heq, ?_⟩
    intro holder hholder
    by_cases hsame : holder.id = id
    · exact hkept { holder with users := holder.users + 1 }
        (List.mem_map.mpr ⟨holder, hholder, if_pos hsame⟩)
    · exact hkept holder (List.mem_map.mpr ⟨holder, hholder, if_neg hsame⟩)

end SharedCell
