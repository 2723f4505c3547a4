import Mathlib

/-!
# Places in lists

Threads, calls, handles and cells are kept in lists.  A step changes the entry in one place and
leaves all other entries as they are.
-/

namespace SharedCell

variable {α κ : Type*}

theorem exists_place {entries : List α} {index : ℕ} {entry : α}
    (hentry : entries[index]? = some entry) :
    ∃ before after, entries = before ++ entry :: after ∧ before.length = index ∧
      (∀ other, entries.set index other = before ++ other :: after) ∧
      entries.eraseIdx index = before ++ after := by
  obtain ⟨hindex, hentry⟩ := List.getElem?_eq_some_iff.mp hentry
  refine ⟨entries.take index, entries.drop (index + 1), ?_, ?_, ?_, ?_⟩
  · rw [← hentry, List.getElem_cons_drop, List.take_append_drop]
  · exact List.length_take_of_le hindex.le
  · intro other
    rw [List.set_eq_take_append_cons_drop, if_pos hindex]
  · exact List.eraseIdx_eq_take_drop_succ entries index

/-- The place of an entry that is the only one with its key: what is done to all entries with the
key is done to this one. -/
theorem exists_keyed {entries : List α} {entry : α} (key : α → κ)
    (hnodup : (entries.map key).Nodup) (hentry : entry ∈ entries) :
    ∃ before after, entries = before ++ entry :: after ∧
      (∀ other ∈ before ++ after, key other ≠ key entry) := by
  obtain ⟨before, after, rfl⟩ := List.append_of_mem hentry
  refine ⟨before, after, rfl, ?_⟩
  rw [List.map_append, List.map_cons, List.nodup_append, List.nodup_cons] at hnodup
  obtain ⟨-, ⟨hafter, -⟩, hbefore⟩ := hnodup
  intro other hother heq
  rcases List.mem_append.mp hother with hother | hother
  · exact hbefore _ (List.mem_map_of_mem hother) _ List.mem_cons_self heq
  · exact hafter (heq ▸ List.mem_map_of_mem hother)

section Keyed

variable [DecidableEq κ] {key : α → κ} {before after : List α} {entry : α}

theorem filter_keyed (hothers : ∀ other ∈ before ++ after, key other ≠ key entry) :
    (before ++ entry :: after).filter (key · != key entry) = before ++ after := by
  rw [List.filter_append, List.filter_cons_of_neg (by simp), ← List.filter_append,
    List.filter_eq_self]
  intro other hother
  exact bne_iff_ne.mpr (hothers other hother)

theorem map_keyed (hothers : ∀ other ∈ before ++ after, key other ≠ key entry) (change : α → α) :
    (before ++ entry :: after).map
        (fun other => if key other = key entry then change other else other) =
      before ++ change entry :: after := by
  have hsame : ∀ others : List α, (∀ other ∈ others, key other ≠ key entry) →
      others.map (fun other => if key other = key entry then change other else other) = others := by
    intro others hothers
    exact (List.map_congr_left (g := fun other => other) fun other hother =>
      if_neg (hothers other hother)).trans others.map_id'
  rw [List.map_append, List.map_cons, if_pos rfl,
    hsame before fun other hother => hothers other (List.mem_append_left after hother),
    hsame after fun other hother => hothers other (List.mem_append_right before hother)]

end Keyed

section Named

variable {entries : List (String × α)} {name : String} {entry : α}

theorem mem_of_lookup (hlookup : entries.lookup name = some entry) : (name, entry) ∈ entries := by
  obtain ⟨before, after, rfl, -⟩ := List.lookup_eq_some_iff.mp hlookup
  exact List.mem_append_right before List.mem_cons_self

theorem lookup_of_mem (hnodup : (entries.map Prod.fst).Nodup) (hmem : (name, entry) ∈ entries) :
    entries.lookup name = some entry := by
  obtain ⟨before, after, rfl, hothers⟩ := exists_keyed Prod.fst hnodup hmem
  refine List.lookup_eq_some_iff.mpr ⟨before, after, rfl, ?_⟩
  intro other hother
  exact bne_iff_ne.mpr (hothers other (List.mem_append_left after hother)).symm

theorem lookup_filter_ne (entries : List (String × α)) (name : String) :
    (entries.filter (·.1 != name)).lookup name = none := by
  rw [List.lookup_eq_none_iff]
  intro entry hentry
  obtain ⟨-, hne⟩ := List.mem_filter.mp hentry
  exact bne_iff_ne.mpr (bne_iff_ne.mp hne).symm

end Named

/-- A pair that ends with the last entry, or stands before it. -/
theorem pair_sublist_concat {entries : List α} {first second last : α} :
    List.Sublist [first, second] (entries ++ [last]) ↔
      List.Sublist [first, second] entries ∨ first ∈ entries ∧ second = last := by
  constructor
  · intro hpair
    have hreverse := List.reverse_sublist.mpr hpair
    simp only [List.reverse_append, List.reverse_cons, List.reverse_nil, List.nil_append,
      List.singleton_append] at hreverse
    rcases List.sublist_cons_iff.mp hreverse with hbefore | ⟨rest, heq, hrest⟩
    · exact .inl (List.reverse_sublist.mp (by simpa using hbefore))
    · rw [List.cons.injEq] at heq
      obtain ⟨rfl, rfl⟩ := heq
      exact .inr ⟨by simpa using hrest, rfl⟩
  · rintro (hbefore | ⟨hfirst, rfl⟩)
    · exact hbefore.trans (List.sublist_append_left entries [last])
    · exact (List.singleton_sublist.mpr hfirst).append_right [second]

end SharedCell
