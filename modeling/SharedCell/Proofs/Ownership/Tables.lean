import Mathlib
import SharedCell.Proofs.Ownership.Sound

/-!
# Tables of owners

What operations do to handles and raw units.  A unit that goes into a table leaves the hand, and one
that is taken out of a table is in hand.
-/

namespace SharedCell

namespace World

namespace Sound

variable {β : Type} [Resident β] {world : World β} {stakes : Stakes} {name : String}
  {unit : ObjectId} {holder : Holder}

/-! ## Handles -/

theorem addHolder (hsound : world.Sound (.unitsOn {unit} + stakes)) :
    (world.addHolder name unit).Sound stakes where
  books := by
    have howned : (world.addHolder name unit).owned = {unit} + world.owned := by
      unfold owned World.addHolder
      rw [List.map_cons, ← Multiset.cons_coe, ← Multiset.singleton_add]
      abel
    have hbooks := hsound.books
    rw [Stakes.inHand_add, (Stakes.unitsOn_parts {unit}).1, add_left_comm] at hbooks
    rw [howned, add_assoc]
    exact hbooks
  held := (hsound.held.congr (by simp) (by simp) (by simp)).push (some name) unit
  raws := hsound.raws
  housed := hsound.housed.congr (by simp) (by simp)
  scripts := hsound.scripts

/-- A handle that nothing uses gives its unit away. -/
theorem eraseHolder (hsound : world.Sound stakes) (hholder : holder ∈ world.holders)
    (hunused : holder.id ∉ stakes.used) :
    (world.eraseHolder holder.id).Sound (.unitsOn {holder.unit} + stakes) where
  books := by
    obtain ⟨front, back, hplace, hothers⟩ := exists_keyed Holder.id hsound.held.ids hholder
    have howned : world.owned = {holder.unit} + (world.eraseHolder holder.id).owned := by
      unfold owned World.eraseHolder
      rw [hplace, filter_keyed hothers]
      simp only [List.map_append, List.map_cons, ← Multiset.coe_add, ← Multiset.cons_coe,
        ← Multiset.singleton_add]
      abel
    have hbooks := hsound.books
    rw [howned] at hbooks
    rw [Stakes.inHand_add, (Stakes.unitsOn_parts {holder.unit}).1, add_left_comm, ← add_assoc]
    exact hbooks
  held := (hsound.held.erase hunused).congr (by simp) (by simp) (by simp)
  raws := hsound.raws
  housed := hsound.housed.congr (by simp) (by simp)
  scripts := hsound.scripts

/-- A handle that changes keeps its unit. -/
theorem modifyHolder {after : Stakes} {change : Holder → Holder} (hsound : world.Sound stakes)
    (hholder : holder ∈ world.holders) (hid : (change holder).id = holder.id)
    (hunit : (change holder).unit = holder.unit)
    (hinHand : after.inHand = stakes.inHand) (hvisited : after.visited = stakes.visited)
    (hcalls : after.calls = stakes.calls)
    (husers : (change holder).users = after.used.count holder.id)
    (hothers : ∀ id, id ≠ holder.id → after.used.count id = stakes.used.count id)
    (hmutations : ∀ id obj, (id, obj) ∈ after.mutations →
      ((id, obj) ∈ stakes.mutations ∧ id ≠ holder.id) ∨
        (id = holder.id ∧ obj = holder.unit ∧ (change holder).exclusive = true ∧
          (change holder).users = 1)) :
    (world.modifyHolder holder.id change).Sound after where
  books := by
    obtain ⟨front, back, hplace, hkeys⟩ := exists_keyed Holder.id hsound.held.ids hholder
    have howned : (world.modifyHolder holder.id change).owned = world.owned := by
      unfold owned World.modifyHolder
      rw [hplace, map_keyed hkeys]
      simp only [List.map_append, List.map_cons, hunit]
    rw [howned, hinHand]
    exact hsound.books
  held := hsound.held.revise hholder hid hunit husers hothers hmutations hcalls
  raws := hsound.raws
  housed := hsound.housed.congr hvisited hcalls
  scripts := hsound.scripts

/-- A handle is used once more. -/
theorem use (hsound : world.Sound stakes) (hholder : holder ∈ world.holders)
    (hshared : holder.exclusive = false) :
    (world.modifyHolder holder.id fun holder => { holder with users := holder.users + 1 }).Sound
      (.useOf holder.id + stakes) := by
  refine hsound.modifyHolder hholder rfl rfl (by simp) (by simp) (by simp) ?_ ?_ ?_
  · have husers := hsound.held.users holder hholder
    simp [husers, add_comm]
  · intro id hne
    simp [hne]
  · intro id obj hmutation
    left
    have hbefore : (id, obj) ∈ stakes.mutations := by simpa using hmutation
    refine ⟨hbefore, ?_⟩
    rintro rfl
    obtain ⟨other, hother, hid, -, hexclusive, -⟩ := hsound.held.exclusive _ _ hbefore
    rw [hsound.held.unique hholder hother hid, hshared] at hexclusive
    cases hexclusive

/-- A handle that nothing uses is used by an operation that allows for no other. -/
theorem monopolize (hsound : world.Sound stakes) (hholder : holder ∈ world.holders)
    (hunused : holder.users = 0) :
    (world.modifyHolder holder.id ({ · with users := 1, exclusive := true })).Sound
      (.changing holder.id holder.unit + stakes) := by
  have hcount := hsound.held.users holder hholder
  rw [hunused] at hcount
  refine hsound.modifyHolder hholder rfl rfl (by simp) (by simp) (by simp) ?_ ?_ ?_
  · simp [← hcount]
  · intro id hne
    simp [hne]
  · intro id obj hmutation
    have hcase : (id, obj) = (holder.id, holder.unit) ∨ (id, obj) ∈ stakes.mutations := by
      simpa using hmutation
    rcases hcase with heq | hbefore
    · obtain ⟨rfl, rfl⟩ := Prod.mk.inj heq
      exact .inr ⟨rfl, rfl, rfl, rfl⟩
    · refine .inl ⟨hbefore, ?_⟩
      rintro rfl
      obtain ⟨other, hother, hid, -, -, hone⟩ := hsound.held.exclusive _ _ hbefore
      rw [hsound.held.unique hholder hother hid, hunused] at hone
      cases hone

/-- The unit that comes back is that of the handle whose name was taken. -/
theorem store (hsound : world.Sound (.unitsOn {unit} + stakes)) :
    (world.store name unit).1.Sound (.unitsOn ↑(world.store name unit).2.toList + stakes) := by
  unfold World.store
  split
  · simpa using hsound.addHolder
  · rename_i old hold
    have hmem : old ∈ world.holders := List.mem_of_find?_eq_some hold
    have husers := hsound.held.users old hmem
    split
    · rename_i hnone
      rw [hnone] at husers
      have herased := hsound.eraseHolder hmem (Multiset.count_eq_zero.mp husers.symm)
      rw [add_left_comm] at herased
      exact herased.addHolder
    · have hrenamed : (world.modifyHolder old.id ({ · with name := none })).Sound
          (.unitsOn {unit} + stakes) := by
        refine hsound.modifyHolder hmem rfl rfl rfl rfl rfl husers (fun _ _ => rfl) ?_
        intro id obj hmutation
        by_cases hid : id = old.id
        · obtain ⟨other, hother, hsame, hunit, hexclusive, hone⟩ :=
            hsound.held.exclusive id obj hmutation
          have heq := hsound.held.unique hmem hother (hsame.trans hid)
          subst heq
          exact .inr ⟨hid, hunit.symm, hexclusive, hone⟩
        · exact .inl ⟨hmutation, hid⟩
      simpa using hrenamed.addHolder

/-- A use of a handle ends. -/
theorem unuse (hsound : world.Sound (.useOf holder.id + stakes))
    (hholder : holder ∈ world.holders) :
    (world.modifyHolder holder.id fun holder =>
      { holder with users := holder.users - 1, exclusive := false }).Sound stakes := by
  have husers : holder.users = stakes.used.count holder.id + 1 := by
    simpa [add_comm] using hsound.held.users holder hholder
  refine hsound.modifyHolder hholder rfl rfl (by simp) (by simp) (by simp) ?_ ?_ ?_
  · exact Nat.sub_eq_of_eq_add husers
  · intro id hne
    simp [hne]
  · intro id obj hmutation
    refine .inl ⟨by simpa using hmutation, ?_⟩
    -- The handle would have a user besides the one that is about to change the payload.
    rintro rfl
    obtain ⟨other, hother, hid, -, -, hone⟩ :=
      hsound.held.exclusive holder.id obj (by simpa using hmutation)
    rw [hsound.held.unique hholder hother hid, husers] at hone
    have hagain := Multiset.count_pos.mpr (stakes.mem_used_of_mutation hmutation)
    omega

omit [Resident β] in
/-- What becomes of a handle does not matter if it is erased. -/
theorem eraseHolder_modifyHolder {change : Holder → Holder} {id : ℕ}
    (hid : ∀ holder, (change holder).id = holder.id) :
    (world.modifyHolder id change).eraseHolder id = world.eraseHolder id := by
  have hfilter : ∀ holders : List Holder,
      (holders.map fun holder => if holder.id = id then change holder else holder).filter
        (·.id != id) = holders.filter (·.id != id) := by
    intro holders
    induction holders with
    | nil => rfl
    | cons holder holders ih => by_cases hsame : holder.id = id <;> simp [hsame, hid, ih]
  rw [World.eraseHolder, World.modifyHolder, hfilter]
  rfl

/-- An operation gives up a handle, and with it the unit if the handle has lost its name. -/
theorem endUse {id : ℕ} (hsound : world.Sound (.useOf id + stakes)) :
    (world.endUse id).1.Sound (.unitsOn ↑(world.endUse id).2.toList + stakes) := by
  unfold World.endUse
  split
  · rename_i hnone
    obtain ⟨holder, hholder, hid⟩ := hsound.held.present id (by simp)
    exact absurd hid (by simpa using List.find?_eq_none.mp hnone holder hholder)
  · rename_i holder hfind
    have hholder : holder ∈ world.holders := List.mem_of_find?_eq_some hfind
    obtain rfl : holder.id = id := by simpa using List.find?_some hfind
    have hafter := hsound.unuse hholder
    split
    · rename_i hlast
      simp only [Bool.and_eq_true, decide_eq_true_eq] at hlast
      have husers : holder.users = stakes.used.count holder.id + 1 := by
        simpa [add_comm] using hsound.held.users holder hholder
      have hunused : holder.id ∉ stakes.used := Multiset.count_eq_zero.mp (by omega)
      have hmem : { holder with users := holder.users - 1, exclusive := false } ∈
          (world.modifyHolder holder.id fun holder =>
            { holder with users := holder.users - 1, exclusive := false }).holders :=
        List.mem_map.mpr ⟨holder, hholder, if_pos rfl⟩
      have herased := hafter.eraseHolder hmem hunused
      have hsame : (world.modifyHolder holder.id fun holder =>
          { holder with users := holder.users - 1, exclusive := false }).eraseHolder holder.id =
            world.eraseHolder holder.id :=
        eraseHolder_modifyHolder fun _ => rfl
      rw [← hsame]
      simpa using herased
    · simpa using hafter

/-! ## Raw units -/

theorem addRaw (hsound : world.Sound (.unitsOn {unit} + stakes)) (hnew : world.raw? name = none) :
    (world.addRaw name unit).Sound stakes where
  books := by
    have howned : (world.addRaw name unit).owned = {unit} + world.owned := by
      unfold owned World.addRaw
      rw [List.map_cons, ← Multiset.cons_coe, ← Multiset.singleton_add]
      abel
    have hbooks := hsound.books
    rw [Stakes.inHand_add, (Stakes.unitsOn_parts {unit}).1, add_left_comm] at hbooks
    rw [howned, add_assoc]
    exact hbooks
  held := hsound.held.congr (by simp) (by simp) (by simp)
  raws := by
    rw [World.addRaw, List.map_cons, List.nodup_cons]
    refine ⟨?_, hsound.raws⟩
    intro hmem
    obtain ⟨⟨_, other⟩, hother, rfl⟩ := List.mem_map.mp hmem
    rw [World.raw?, lookup_of_mem hsound.raws hother] at hnew
    cases hnew
  housed := hsound.housed.congr (by simp) (by simp)
  scripts := hsound.scripts

theorem eraseRaw (hsound : world.Sound stakes) (hraw : world.raw? name = some unit) :
    (world.eraseRaw name).Sound (.unitsOn {unit} + stakes) where
  books := by
    obtain ⟨front, back, hplace, hothers⟩ :=
      exists_keyed Prod.fst hsound.raws (mem_of_lookup hraw)
    have howned : world.owned = {unit} + (world.eraseRaw name).owned := by
      have hfilter : world.raws.filter (·.1 != name) = front ++ back := by
        rw [hplace]
        exact filter_keyed hothers
      unfold owned World.eraseRaw
      rw [hfilter, hplace]
      simp only [List.map_append, List.map_cons, ← Multiset.coe_add, ← Multiset.cons_coe,
        ← Multiset.singleton_add]
      abel
    have hbooks := hsound.books
    rw [howned] at hbooks
    rw [Stakes.inHand_add, (Stakes.unitsOn_parts {unit}).1, add_left_comm, ← add_assoc]
    exact hbooks
  held := hsound.held.congr (by simp) (by simp) (by simp)
  raws := hsound.raws.sublist (List.filter_sublist.map _)
  housed := hsound.housed.congr (by simp) (by simp)
  scripts := hsound.scripts

end Sound

end World

end SharedCell
