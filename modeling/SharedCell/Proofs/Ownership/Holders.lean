import Mathlib
import SharedCell.Proofs.Ownership.Stakes
import SharedCell.Proofs.Places
import SharedCell.World

/-!
# Handles in use

Each handle counts the operations that use it, and a handle in use is not given up.  An operation
that changes a payload is the only user of its handle.  A call keeps in use a handle on the object
that it is to store, so that the object outlives the call.
-/

namespace SharedCell

/-- A handle that the call uses has a unit on what the call is to store. -/
def Call.Backed (holders : List Holder) (call : Call) : Prop :=
  ∀ new, call.action.new? = some new →
    ∃ holder ∈ holders, holder.id ∈ call.holders ∧ holder.unit = new

structure Held (holders : List Holder) (next : ℕ) (stakes : Stakes) : Prop where
  ids : (holders.map Holder.id).Nodup
  fresh : ∀ holder ∈ holders, holder.id < next
  users : ∀ holder ∈ holders, holder.users = stakes.used.count holder.id
  present : ∀ id ∈ stakes.used, ∃ holder ∈ holders, holder.id = id
  exclusive : ∀ id obj, (id, obj) ∈ stakes.mutations →
    ∃ holder ∈ holders, holder.id = id ∧ holder.unit = obj ∧ holder.exclusive = true ∧
      holder.users = 1
  backed : ∀ call ∈ stakes.calls, call.Backed holders

namespace Held

variable {holders : List Holder} {next : ℕ} {stakes after : Stakes} {holder : Holder}

/-- Only what is in use matters, and what is about to be changed or stored. -/
theorem mono (hheld : Held holders next stakes) (hused : after.used = stakes.used)
    (hmutations : ∀ mutation ∈ after.mutations, mutation ∈ stakes.mutations)
    (hcalls : ∀ call ∈ after.calls, call.Backed holders) : Held holders next after where
  ids := hheld.ids
  fresh := hheld.fresh
  users := hused ▸ hheld.users
  present := hused ▸ hheld.present
  exclusive id obj hmem := hheld.exclusive id obj (hmutations _ hmem)
  backed := hcalls

theorem congr (hheld : Held holders next stakes) (hused : after.used = stakes.used)
    (hmutations : after.mutations = stakes.mutations) (hcalls : after.calls = stakes.calls) :
    Held holders next after :=
  hheld.mono hused (fun _ hmem => hmutations ▸ hmem) (hcalls ▸ hheld.backed)

/-- The only handle with an identifier. -/
theorem unique (hheld : Held holders next stakes) {other : Holder} (hholder : holder ∈ holders)
    (hother : other ∈ holders) (hid : other.id = holder.id) : other = holder :=
  List.inj_on_of_nodup_map hheld.ids hother hholder hid

theorem push (hheld : Held holders next stakes) (name : Option String) (unit : ObjectId) :
    Held ({ id := next, name, unit } :: holders) (next + 1) stakes := by
  have hunused : next ∉ stakes.used := by
    intro hmem
    obtain ⟨holder, hholder, hid⟩ := hheld.present next hmem
    exact (hheld.fresh holder hholder).ne hid
  constructor
  case ids =>
    rw [List.map_cons, List.nodup_cons]
    refine ⟨?_, hheld.ids⟩
    intro hmem
    obtain ⟨holder, hholder, hid⟩ := List.mem_map.mp hmem
    exact (hheld.fresh holder hholder).ne hid
  case fresh =>
    intro holder hmem
    rcases List.mem_cons.mp hmem with rfl | hmem
    · exact Nat.lt_succ_self next
    · exact Nat.lt_succ_of_lt (hheld.fresh holder hmem)
  case users =>
    intro holder hmem
    rcases List.mem_cons.mp hmem with rfl | hmem
    · exact (Multiset.count_eq_zero_of_notMem hunused).symm
    · exact hheld.users holder hmem
  case present =>
    intro id hmem
    obtain ⟨holder, hholder, hid⟩ := hheld.present id hmem
    exact ⟨holder, List.mem_cons_of_mem _ hholder, hid⟩
  case exclusive =>
    intro id obj hmem
    obtain ⟨holder, hholder, hrest⟩ := hheld.exclusive id obj hmem
    exact ⟨holder, List.mem_cons_of_mem _ hholder, hrest⟩
  case backed =>
    intro call hcall new hnew
    obtain ⟨holder, hholder, hrest⟩ := hheld.backed call hcall new hnew
    exact ⟨holder, List.mem_cons_of_mem _ hholder, hrest⟩

/-- A handle that nothing uses can be given up. -/
theorem erase (hheld : Held holders next stakes) (hunused : holder.id ∉ stakes.used) :
    Held (holders.filter (·.id != holder.id)) next stakes := by
  have hkept : ∀ other ∈ holders, other.id ∈ stakes.used →
      other ∈ holders.filter (·.id != holder.id) := by
    intro other hother hid
    rw [List.mem_filter, bne_iff_ne]
    exact ⟨hother, fun heq => hunused (heq ▸ hid)⟩
  constructor
  case ids => exact hheld.ids.sublist (List.filter_sublist.map _)
  case fresh => exact fun other hother => hheld.fresh other (List.mem_of_mem_filter hother)
  case users => exact fun other hother => hheld.users other (List.mem_of_mem_filter hother)
  case present =>
    intro id hmem
    obtain ⟨other, hother, rfl⟩ := hheld.present id hmem
    exact ⟨other, hkept other hother hmem, rfl⟩
  case exclusive =>
    intro id obj hmem
    obtain ⟨other, hother, rfl, hrest⟩ := hheld.exclusive id obj hmem
    exact ⟨other, hkept other hother (stakes.mem_used_of_mutation hmem), rfl, hrest⟩
  case backed =>
    intro call hcall new hnew
    obtain ⟨other, hother, hid, hunit⟩ := hheld.backed call hcall new hnew
    exact ⟨other, hkept other hother (stakes.mem_used_of_call hcall hid), hid, hunit⟩

/-- A handle that changes keeps its identifier and its unit. -/
theorem revise {change : Holder → Holder} (hheld : Held holders next stakes)
    (hholder : holder ∈ holders) (hid : (change holder).id = holder.id)
    (hunit : (change holder).unit = holder.unit)
    (husers : (change holder).users = after.used.count holder.id)
    (hothers : ∀ id, id ≠ holder.id → after.used.count id = stakes.used.count id)
    (hmutations : ∀ id obj, (id, obj) ∈ after.mutations →
      ((id, obj) ∈ stakes.mutations ∧ id ≠ holder.id) ∨
        (id = holder.id ∧ obj = holder.unit ∧ (change holder).exclusive = true ∧
          (change holder).users = 1))
    (hcalls : after.calls = stakes.calls) :
    Held (holders.map fun other => if other.id = holder.id then change other else other) next
      after := by
  obtain ⟨front, back, hplace, hkeys⟩ := exists_keyed Holder.id hheld.ids hholder
  have hchanged : (holders.map fun other => if other.id = holder.id then change other else other) =
      front ++ change holder :: back := by
    rw [hplace]
    exact map_keyed hkeys change
  have hmem : ∀ other ∈ front ++ change holder :: back,
      other = change holder ∨ (other ∈ holders ∧ other.id ≠ holder.id) := by
    intro other hother
    rcases List.mem_append.mp hother with hother | hother
    · exact .inr ⟨hplace ▸ List.mem_append_left _ hother, hkeys _ (List.mem_append_left _ hother)⟩
    · rcases List.mem_cons.mp hother with rfl | hother
      · exact .inl rfl
      · exact .inr ⟨hplace ▸ List.mem_append_right _ (List.mem_cons_of_mem _ hother),
          hkeys _ (List.mem_append_right _ hother)⟩
  have hself : change holder ∈ front ++ change holder :: back :=
    List.mem_append_right _ List.mem_cons_self
  have hkept : ∀ other ∈ holders, other ≠ holder → other ∈ front ++ change holder :: back := by
    intro other hother hne
    rw [hplace, List.mem_append, List.mem_cons] at hother
    rw [List.mem_append, List.mem_cons]
    rcases hother with hother | rfl | hother
    · exact .inl hother
    · exact absurd rfl hne
    · exact .inr (.inr hother)
  rw [hchanged]
  constructor
  case ids =>
    have hids := hheld.ids
    rw [hplace] at hids
    simpa [hid] using hids
  case fresh =>
    intro other hother
    rcases hmem other hother with rfl | ⟨hother, -⟩
    · exact hid ▸ hheld.fresh holder hholder
    · exact hheld.fresh other hother
  case users =>
    intro other hother
    rcases hmem other hother with rfl | ⟨hother, hne⟩
    · rw [husers, hid]
    · rw [hheld.users other hother, hothers other.id hne]
  case present =>
    intro id hused
    by_cases heq : id = holder.id
    · exact ⟨change holder, hself, hid.trans heq.symm⟩
    · have hbefore : id ∈ stakes.used := by
        rwa [← Multiset.count_pos, ← hothers id heq, Multiset.count_pos]
      obtain ⟨other, hother, rfl⟩ := hheld.present id hbefore
      exact ⟨other, hkept other hother fun hsame => heq (hsame ▸ rfl), rfl⟩
  case exclusive =>
    intro id obj hmutation
    rcases hmutations id obj hmutation with ⟨hbefore, hne⟩ | ⟨rfl, rfl, hexclusive, hone⟩
    · obtain ⟨other, hother, rfl, hrest⟩ := hheld.exclusive id obj hbefore
      exact ⟨other, hkept other hother fun hsame => hne (hsame ▸ rfl), rfl, hrest⟩
    · exact ⟨change holder, hself, hid, hunit, hexclusive, hone⟩
  case backed =>
    intro call hcall new hnew
    obtain ⟨other, hother, hused, rfl⟩ := hheld.backed call (hcalls ▸ hcall) new hnew
    by_cases hsame : other = holder
    · subst hsame
      exact ⟨change other, hself, hid.symm ▸ hused, hunit⟩
    · exact ⟨other, hkept other hother hsame, hused, rfl⟩

/-- What is about to be changed or stored through different handles has two units. -/
theorem two_units {other : Holder} (hholder : holder ∈ holders)
    (hother : other ∈ holders) (hne : other.id ≠ holder.id) (hunit : other.unit = holder.unit) :
    2 ≤ (holders.map Holder.unit).count holder.unit := by
  obtain ⟨front, back, rfl⟩ := List.append_of_mem hholder
  rw [List.map_append, List.map_cons, List.count_append, List.count_cons_self]
  have hone : 1 ≤ ((front ++ back).map Holder.unit).count holder.unit := by
    rw [Nat.one_le_iff_ne_zero, ← Nat.pos_iff_ne_zero, List.count_pos_iff, List.mem_map]
    rw [List.mem_append, List.mem_cons] at hother
    refine ⟨other, List.mem_append.mpr ?_, hunit⟩
    rcases hother with hother | rfl | hother
    · exact .inl hother
    · exact absurd rfl hne
    · exact .inr hother
  rw [List.map_append, List.count_append] at hone
  omega

end Held

end SharedCell
