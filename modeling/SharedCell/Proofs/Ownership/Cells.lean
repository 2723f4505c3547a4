import Mathlib
import SharedCell.Proofs.Cell.Sound
import SharedCell.Proofs.Ownership.Stakes
import SharedCell.Proofs.Places

/-!
# Named cells in use

The cells of a world have different names, and a cell that is in use is there.  Each of them is in
order with respect to what frames have at stake in it.
-/

namespace SharedCell

namespace Stakes

/-- The calls that are made on the cell of a name. -/
def callsOn (stakes : Stakes) (name : String) : Multiset Call :=
  stakes.calls.filter (·.cell = name)

variable {stakes : Stakes} {name : String} {call : Call}

theorem mem_callsOn : call ∈ stakes.callsOn name ↔ call ∈ stakes.calls ∧ call.cell = name :=
  Multiset.mem_filter

@[simp]
theorem callsOn_add (left right : Stakes) (name : String) :
    (left + right).callsOn name = left.callsOn name + right.callsOn name := by
  rw [callsOn, add_calls, Multiset.filter_add, callsOn, callsOn]

@[simp]
theorem callsOn_making (call : Call) : (making call).callsOn call.cell = {call} := by
  rw [callsOn, (making_parts call).2.2.2.1, Multiset.filter_singleton, if_pos rfl]

theorem callsOn_making_of_ne (hne : call.cell ≠ name) : (making call).callsOn name = 0 := by
  rw [callsOn, (making_parts call).2.2.2.1, Multiset.filter_singleton, if_neg hne]
  rfl

theorem callsOn_of_calls (hnone : stakes.calls = 0) : stakes.callsOn name = 0 := by
  rw [callsOn, hnone, Multiset.filter_zero]

theorem callsOn_eq_zero (hunused : name ∉ stakes.visited) : stakes.callsOn name = 0 := by
  rw [Multiset.eq_zero_iff_forall_notMem]
  intro call hcall
  obtain ⟨hmem, rfl⟩ := mem_callsOn.mp hcall
  exact hunused (stakes.mem_visited_of_call hmem)

theorem card_callsOn_le (stakes : Stakes) (name : String) :
    (stakes.callsOn name).card ≤ stakes.visited.count name := by
  rw [visited, Multiset.count_add, Multiset.count_map, callsOn]
  refine le_trans (le_of_eq ?_) (Nat.le_add_left _ _)
  simp only [eq_comm]

end Stakes

/-- The cells of a world, given what is at stake in them. -/
structure Housed (cells : List (String × Cell)) (stakes : Stakes) (facts : ObjectId → Facts) :
    Prop where
  names : (cells.map Prod.fst).Nodup
  present : ∀ name ∈ stakes.visited, ∃ cell, (name, cell) ∈ cells
  sound : ∀ name cell, (name, cell) ∈ cells →
    cell.Sound (stakes.visited.count name) (stakes.callsOn name) facts

namespace Housed

variable {cells : List (String × Cell)} {stakes after : Stakes} {facts : ObjectId → Facts}
  {name : String} {cell : Cell}

theorem congr (hhoused : Housed cells stakes facts) (hvisited : after.visited = stakes.visited)
    (hcalls : after.calls = stakes.calls) : Housed cells after facts where
  names := hhoused.names
  present := hvisited ▸ hhoused.present
  sound name cell hcell := by
    rw [Stakes.callsOn, hvisited, hcalls]
    exact hhoused.sound name cell hcell

/-- Calls come and go on cells that stay in use. -/
theorem restake (hhoused : Housed cells stakes facts) (hvisited : after.visited = stakes.visited)
    (hsound : ∀ name cell, (name, cell) ∈ cells →
      cell.Sound (stakes.visited.count name) (after.callsOn name) facts) :
    Housed cells after facts where
  names := hhoused.names
  present := hvisited ▸ hhoused.present
  sound := hvisited ▸ hsound

theorem push (hhoused : Housed cells stakes facts) (hnew : cells.lookup name = none)
    (hcell : cell.Sound 0 0 facts) : Housed ((name, cell) :: cells) stakes facts := by
  have habsent : ∀ other, (name, other) ∉ cells := by
    intro other hmem
    rw [lookup_of_mem hhoused.names hmem] at hnew
    cases hnew
  have hunused : name ∉ stakes.visited := by
    intro hmem
    obtain ⟨other, hother⟩ := hhoused.present name hmem
    exact habsent other hother
  constructor
  case names =>
    rw [List.map_cons, List.nodup_cons]
    refine ⟨?_, hhoused.names⟩
    intro hmem
    obtain ⟨⟨_, other⟩, hother, rfl⟩ := List.mem_map.mp hmem
    exact habsent other hother
  case present =>
    intro other hmem
    obtain ⟨cell, hcell⟩ := hhoused.present other hmem
    exact ⟨cell, List.mem_cons_of_mem _ hcell⟩
  case sound =>
    intro other found hmem
    rcases List.mem_cons.mp hmem with heq | hmem
    · obtain ⟨rfl, rfl⟩ := Prod.mk.inj heq
      rw [Multiset.count_eq_zero_of_notMem hunused, Stakes.callsOn_eq_zero hunused]
      exact hcell
    · exact hhoused.sound other found hmem

theorem erase (hhoused : Housed cells stakes facts) (hunused : name ∉ stakes.visited) :
    Housed (cells.filter (·.1 != name)) stakes facts where
  names := hhoused.names.sublist (List.filter_sublist.map _)
  present other hmem := by
    obtain ⟨cell, hcell⟩ := hhoused.present other hmem
    refine ⟨cell, List.mem_filter.mpr ⟨hcell, bne_iff_ne.mpr ?_⟩⟩
    exact fun heq => hunused (heq ▸ hmem)
  sound other found hmem := hhoused.sound other found (List.mem_of_mem_filter hmem)

/-- One cell changes. -/
theorem revise {change : Cell → Cell} (hhoused : Housed cells stakes facts)
    (hcell : (name, cell) ∈ cells)
    (hvisited : ∀ other, other ≠ name →
      after.visited.count other = stakes.visited.count other)
    (hcalls : ∀ other, other ≠ name → after.callsOn other = stakes.callsOn other)
    (hsound : (change cell).Sound (after.visited.count name) (after.callsOn name) facts) :
    Housed (cells.map fun (other, cell) =>
      if other = name then (other, change cell) else (other, cell)) after facts := by
  obtain ⟨front, back, hplace, hothers⟩ := exists_keyed Prod.fst hhoused.names hcell
  have hchanged : (cells.map fun (other, cell) =>
      if other = name then (other, change cell) else (other, cell)) =
        front ++ (name, change cell) :: back := by
    rw [hplace]
    exact map_keyed hothers fun entry => (entry.1, change entry.2)
  rw [hchanged]
  constructor
  case names =>
    have hnames := hhoused.names
    rw [hplace] at hnames
    simpa using hnames
  case present =>
    intro other hmem
    by_cases heq : other = name
    · exact ⟨change cell, heq ▸ List.mem_append_right _ List.mem_cons_self⟩
    · have hbefore : other ∈ stakes.visited := by
        rwa [← Multiset.count_pos, ← hvisited other heq, Multiset.count_pos]
      obtain ⟨found, hfound⟩ := hhoused.present other hbefore
      rw [hplace, List.mem_append, List.mem_cons] at hfound
      refine ⟨found, ?_⟩
      rw [List.mem_append, List.mem_cons]
      rcases hfound with hfound | hfound | hfound
      · exact .inl hfound
      · exact absurd (Prod.mk.inj hfound).1 heq
      · exact .inr (.inr hfound)
  case sound =>
    intro other found hmem
    have hcase : (other = name ∧ found = change cell) ∨
        (other ≠ name ∧ (other, found) ∈ cells) := by
      rcases List.mem_append.mp hmem with hmem | hmem
      · exact .inr ⟨hothers _ (List.mem_append_left _ hmem),
          hplace ▸ List.mem_append_left _ hmem⟩
      · rcases List.mem_cons.mp hmem with heq | hmem
        · exact .inl (Prod.mk.inj heq)
        · exact .inr ⟨hothers _ (List.mem_append_right _ hmem),
            hplace ▸ List.mem_append_right _ (List.mem_cons_of_mem _ hmem)⟩
    rcases hcase with ⟨rfl, rfl⟩ | ⟨hne, hfound⟩
    · exact hsound
    · rw [hvisited other hne, hcalls other hne]
      exact hhoused.sound other found hfound

end Housed

end SharedCell
