import Mathlib
import SharedCell.Proofs.Solo.Conduct

/-!
# Arguments of calls

An operation on a cell finds out what its arguments stand for, and keeps their handles and the cell
in use until it ends.  What is used in this way is what it was once the operation has ended.
-/

namespace SharedCell

variable {β : Type}

namespace World

variable {world next : World β} {holder : Holder} {ids : List ℕ}

/-- What an argument stands for: nothing, or the object of a handle that no operation has to
itself. -/
def meaning? (world : World β) : Arg → Option (Option ObjectId)
  | .empty => some none
  | .named name => ((world.holder? name).filter (!·.exclusive)).map (some ·.unit)
  | .malformed => none

/-! ## Handles in use -/

/-- The world in which handles are used, each as often as it is listed. -/
def lend (world : World β) (ids : List ℕ) : World β :=
  { world with
    holders := world.holders.map fun holder =>
      { holder with users := holder.users + ids.count holder.id } }

/-- A handle that an operation can use. -/
structure Lends (world : World β) (id : ℕ) : Prop where
  holder : ∃ holder ∈ world.holders, holder.id = id ∧ holder.name.isSome = true ∧
    holder.exclusive = false

theorem lend_nil (world : World β) : world.lend [] = world := by
  simp [lend]

theorem lend_use (world : World β) (used ids : List ℕ) :
    ids.foldl (fun world id => world.modifyHolder id fun holder =>
      { holder with users := holder.users + 1 }) (world.lend used) = world.lend (used ++ ids) := by
  induction ids generalizing used with
  | nil => simp
  | cons id ids ih =>
    have hone : (world.lend used).modifyHolder id
        (fun holder => { holder with users := holder.users + 1 }) = world.lend (used ++ [id]) := by
      simp only [lend, modifyHolder, List.map_map]
      congr 1
      apply List.map_congr_left
      intro holder _
      by_cases hsame : holder.id = id
      · simp [hsame, Nat.add_assoc]
      · simp [hsame, Ne.symm hsame]
    rw [List.foldl_cons, hone, ih, List.append_assoc, List.singleton_append]

/-- The handles of an operation that begins. -/
theorem use_eq_lend (world : World β) (ids : List ℕ) :
    ids.foldl (fun world id => world.modifyHolder id fun holder =>
      { holder with users := holder.users + 1 }) world = world.lend ids := by
  have huse := world.lend_use [] ids
  rwa [lend_nil] at huse

theorem find_holder (hids : (world.holders.map Holder.id).Nodup) (hholder : holder ∈ world.holders) :
    world.holders.find? (·.id = holder.id) = some holder := by
  cases hfind : world.holders.find? (·.id = holder.id) with
  | none => simpa using List.find?_eq_none.mp hfind holder hholder
  | some other =>
    have hsame : other.id = holder.id := by simpa using List.find?_some hfind
    rw [List.inj_on_of_nodup_map hids (List.mem_of_find?_eq_some hfind) hholder hsame]

theorem endUse_lend {id : ℕ} (hids : (world.holders.map Holder.id).Nodup)
    (hlends : world.Lends id) : (world.lend (id :: ids)).endUse id = (world.lend ids, none) := by
  obtain ⟨holder, hholder, rfl, hname, hshared⟩ := hlends
  have hfind : (world.lend (holder.id :: ids)).holders.find? (·.id = holder.id) =
      some { holder with users := holder.users + (holder.id :: ids).count holder.id } := by
    rw [lend, List.find?_map]
    exact congrArg _ (find_holder hids hholder)
  have hnamed : holder.name.isNone = false := by
    cases hname' : holder.name <;> simp_all
  rw [endUse, hfind]
  simp only [hnamed, Bool.and_false, Bool.false_eq_true, if_false]
  congr 1
  simp only [lend, modifyHolder, List.map_map]
  congr 1
  apply List.map_congr_left
  intro other hother
  by_cases hsame : other.id = holder.id
  · obtain rfl : other = holder := List.inj_on_of_nodup_map hids hother hholder hsame
    simp [hshared, ← Nat.add_assoc]
  · simp [hsame, Ne.symm hsame]

/-- The tables of handles are not touched by what a call does on its way. -/
theorem undergo_lend [Resident β] (world : World β) (guard : Guard) (effects : List Effect)
    (ids : List ℕ) : (world.lend ids).undergo guard effects =
      (world.undergo guard effects).lend ids := by
  refine (world.undergo_tables guard effects _ world.cells).trans ?_
  rw [lend, holders_undergo, ← cells_undergo world guard effects]

end World

namespace Solo

open World

variable [Resident β] {world next : World β}

/-- What was lent to an operation comes back. -/
theorem tidies_lent {ids : List ℕ} (hids : (world.holders.map Holder.id).Nodup)
    (hlends : ∀ id ∈ ids, world.Lends id) (rest : List Chore) :
    Tidies (world.lend ids) (ids.map .endUse ++ rest) next ↔ Tidies world rest next := by
  induction ids with
  | nil => rw [lend_nil]; rfl
  | cons id ids ih =>
    have hperform : (Chore.endUse id).perform 0 (world.lend (id :: ids)) = (world.lend ids, []) := by
      rw [Chore.perform, endUse_lend hids (hlends id List.mem_cons_self)]
      rfl
    rw [List.map_cons, List.cons_append, Tidies, hperform]
    simp only [clears_nil, exists_eq_left]
    exact ih fun other hother => hlends other (List.mem_cons_of_mem id hother)

end Solo

namespace Operation

open Attempt World

variable [Resident β] {world : World β} {name : String} {cell : Cell}

omit [Resident β] in
/-- An argument that stands for something is found, and nothing has changed. -/
theorem arg_meaning {argument : Arg} {unit : Option ObjectId}
    (hmeaning : world.meaning? argument = some unit) :
    ∃ found, (arg argument : Attempt β (Option Holder)).run world = .ok (found, world) ∧
      found.map (·.unit) = unit ∧ ∀ holder, found = some holder → world.Lends holder.id := by
  cases argument with
  | empty => exact ⟨none, rfl, by simpa [meaning?] using hmeaning, by simp⟩
  | malformed => cases hmeaning
  | named name =>
    obtain ⟨holder, hholder, rfl⟩ := Option.map_eq_some_iff.mp hmeaning
    obtain ⟨hfound, hshared⟩ := Option.filter_eq_some_iff.mp hholder
    have hfree : holder.exclusive = false := by simpa using hshared
    have hname : holder.name = some name := by simpa using List.find?_some hfound
    refine ⟨some holder, ?_, rfl, ?_⟩
    · simp only [arg, named, StateT.run_map, StateT.run_bind, StateT.run_get, pure_bind, hfound,
        hfree]
      rfl
    · rintro _ ⟨⟩
      exact ⟨holder, List.mem_of_find?_eq_some hfound, rfl, by rw [hname]; rfl, hfree⟩

/-- A call is begun once its arguments are known. -/
theorem start_onCell {verb : Verb} {new expected : Arg} {target copy : Option String}
    {compared fresh : Option Holder} {wanted : Option ObjectId} {action : Action}
    (hcell : world.cell? name = some cell) (hbars : cell.bars 0 action.looks = false)
    (hnew : (arg new : Attempt β (Option Holder)).run world = .ok (fresh, world))
    (hcompared : (comparand cell.kind verb expected : Attempt β _).run world =
      .ok ((compared, wanted), world))
    (hcopy : (copyName cell.kind verb : Attempt β (Option String)).run world = .ok (copy, world))
    (haction : action? cell.kind wanted (fresh.map (·.unit)) verb = some action) :
    let holders := [compared, fresh].filterMap (·.map (·.id))
    (onCell (some name) verb new expected target).start 0 world =
      ((world.lend holders).useCell name 0 action.looks,
        .call { cell := name, action, stage := action.opening cell.kind, target, copy, holders }) := by
  intro holders
  have hmake : (makeCall 0 name cell action target copy [compared, fresh] : Attempt β Call).run
      world = .ok ({ cell := name, action, stage := action.opening cell.kind, target, copy, holders },
        (world.lend holders).useCell name 0 action.looks) := by
    rw [← use_eq_lend]
    rfl
  have hrequire : (require (!cell.bars 0 verb.looks) .busy : Attempt β Unit).run world =
      pure ((), world) := by
    rw [← action?_looks haction, hbars]
    rfl
  replace hnew : (arg new : Attempt β _).run world = pure (fresh, world) := hnew
  replace hcompared : (comparand cell.kind verb expected : Attempt β _).run world =
    pure ((compared, wanted), world) := hcompared
  replace hcopy : (copyName cell.kind verb : Attempt β _).run world = pure (copy, world) := hcopy
  have hstart : (startOnCell 0 (some name) verb new expected target : Attempt β Frame).run world =
      .ok (.call { cell := name, action, stage := action.opening cell.kind, target, copy, holders },
        (world.lend holders).useCell name 0 action.looks) := by
    simp only [startOnCell, Attempt.cell, field, StateT.run_bind, pure_bind, StateT.run_get,
      bind_assoc, hcell, StateT.run_pure, hrequire, hnew, hcompared, hcopy, haction]
    split
    · cases haction
    · cases haction
    · cases haction
    · exact run_bind.mpr ⟨_, _, hmake, rfl⟩
  rw [start, begin?, hstart]

end Operation

end SharedCell
