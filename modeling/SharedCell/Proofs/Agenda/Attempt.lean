import Mathlib
import SharedCell.Agenda.Start

/-!
# Successful attempts

What is known when the checks of an operation have passed.  An attempt that succeeds is one whose
steps succeed one after the other, and most steps leave the world as it was.
-/

namespace SharedCell

namespace Attempt

variable {β : Type} {α γ : Type} {world next : World β}

theorem run_bind {attempt : Attempt β α} {rest : α → Attempt β γ} {result : γ} :
    (attempt >>= rest).run world = .ok (result, next) ↔
      ∃ value between, attempt.run world = .ok (value, between) ∧
        (rest value).run between = .ok (result, next) := by
  rw [StateT.run_bind]
  cases attempt.run world with
  | error fault => simp [bind, Except.bind]
  | ok value =>
    obtain ⟨value, between⟩ := value
    simp [bind, Except.bind, and_assoc]

theorem run_pure {value result : α} :
    (pure value : Attempt β α).run world = .ok (result, next) ↔ result = value ∧ next = world := by
  rw [StateT.run_pure]
  simp [pure, Except.pure, eq_comm]

theorem run_get {result : World β} :
    (get : Attempt β (World β)).run world = .ok (result, next) ↔ result = world ∧ next = world := by
  rw [StateT.run_get]
  simp [pure, Except.pure, eq_comm]

theorem run_set {later : World β} {result : Unit} :
    (set later : Attempt β PUnit).run world = .ok (result, next) ↔ next = later := by
  rw [StateT.run_set]
  simp [pure, Except.pure, eq_comm]

theorem run_modify {change : World β → World β} {result : Unit} :
    (modify change : Attempt β PUnit).run world = .ok (result, next) ↔ next = change world := by
  rw [StateT.run_modify]
  simp [pure, Except.pure, eq_comm]

theorem run_throw {fault : Fault} {result : α} :
    (throw fault : Attempt β α).run world = .ok (result, next) ↔ False := by
  rw [StateT.run_throw]
  simp [throw, throwThe, MonadExceptOf.throw]

theorem run_field {value : Option α} {result : α} :
    (field value : Attempt β α).run world = .ok (result, next) ↔
      value = some result ∧ next = world := by
  cases value with
  | none => exact run_throw.trans (by simp)
  | some value => exact run_pure.trans (by simp [eq_comm])

theorem run_require {condition : Bool} {fault : Fault} {result : Unit} :
    (require condition fault : Attempt β Unit).run world = .ok (result, next) ↔
      condition = true ∧ next = world := by
  cases condition with
  | false => exact run_throw.trans (by simp)
  | true => exact run_pure.trans (by simp)

/-! ## First steps

What follows from the success of an attempt that begins with a certain step. -/

section Binds

variable {rest : α → Attempt β γ} {result : γ}

theorem bind_field {value : Option α}
    (hrun : (field value >>= rest).run world = .ok (result, next)) :
    ∃ found, value = some found ∧ (rest found).run world = .ok (result, next) := by
  obtain ⟨found, _, hfield, hrest⟩ := run_bind.mp hrun
  obtain ⟨hvalue, rfl⟩ := run_field.mp hfield
  exact ⟨found, hvalue, hrest⟩

theorem bind_get {rest : World β → Attempt β γ}
    (hrun : (get >>= rest).run world = .ok (result, next)) :
    (rest world).run world = .ok (result, next) := by
  obtain ⟨_, _, hget, hrest⟩ := run_bind.mp hrun
  obtain ⟨rfl, rfl⟩ := run_get.mp hget
  exact hrest

theorem bind_require {condition : Bool} {fault : Fault} {rest : Unit → Attempt β γ}
    (hrun : (require condition fault >>= rest).run world = .ok (result, next)) :
    condition = true ∧ (rest ()).run world = .ok (result, next) := by
  obtain ⟨_, _, hrequire, hrest⟩ := run_bind.mp hrun
  obtain ⟨hcondition, rfl⟩ := run_require.mp hrequire
  exact ⟨hcondition, hrest⟩

theorem bind_modify {change : World β → World β} {rest : PUnit → Attempt β γ}
    (hrun : (modify change >>= rest).run world = .ok (result, next)) :
    (rest ⟨⟩).run (change world) = .ok (result, next) := by
  obtain ⟨_, _, hmodify, hrest⟩ := run_bind.mp hrun
  obtain rfl := run_modify.mp hmodify
  exact hrest

theorem bind_set {later : World β} {rest : PUnit → Attempt β γ}
    (hrun : (set later >>= rest).run world = .ok (result, next)) :
    (rest ⟨⟩).run later = .ok (result, next) := by
  obtain ⟨_, _, hset, hrest⟩ := run_bind.mp hrun
  obtain rfl := run_set.mp hset
  exact hrest

end Binds

/-! ## Attempts that change nothing -/

/-- An attempt that does not change the world. -/
def Stays (attempt : Attempt β α) : Prop :=
  ∀ world result next, attempt.run world = .ok (result, next) → next = world

theorem Stays.bind {attempt : Attempt β α} {rest : α → Attempt β γ} (hstays : attempt.Stays)
    (hrest : ∀ value, (rest value).Stays) : (attempt >>= rest).Stays := by
  intro world result next hrun
  obtain ⟨value, between, hattempt, hrun⟩ := run_bind.mp hrun
  rw [hrest value _ _ _ hrun, hstays _ _ _ hattempt]

theorem bind_stays {attempt : Attempt β α} {rest : α → Attempt β γ} {result : γ}
    (hstays : attempt.Stays) (hrun : (attempt >>= rest).run world = .ok (result, next)) :
    ∃ value, attempt.run world = .ok (value, world) ∧
      (rest value).run world = .ok (result, next) := by
  obtain ⟨value, between, hattempt, hrest⟩ := run_bind.mp hrun
  obtain rfl := hstays _ _ _ hattempt
  exact ⟨value, hattempt, hrest⟩

theorem stays_pure (value : α) : (pure value : Attempt β α).Stays :=
  fun _ _ _ hrun => (run_pure.mp hrun).2

theorem stays_throw (fault : Fault) : (throw fault : Attempt β α).Stays :=
  fun _ _ _ hrun => (run_throw.mp hrun).elim

theorem stays_get : (get : Attempt β (World β)).Stays :=
  fun _ _ _ hrun => (run_get.mp hrun).2

theorem stays_field (value : Option α) : (field value : Attempt β α).Stays :=
  fun _ _ _ hrun => (run_field.mp hrun).2

theorem stays_require (condition : Bool) (fault : Fault) :
    (require condition fault : Attempt β Unit).Stays :=
  fun _ _ _ hrun => (run_require.mp hrun).2

theorem stays_named (name : String) : (named name : Attempt β Holder).Stays := by
  refine stays_get.bind fun world => ?_
  split
  · exact stays_throw _
  · split
    · exact stays_throw _
    · exact stays_pure _

theorem stays_handle (name : Option String) : (handle name : Attempt β Holder).Stays :=
  (stays_field name).bind stays_named

theorem stays_arg (argument : Arg) : (arg argument : Attempt β (Option Holder)).Stays := by
  cases argument with
  | empty => exact stays_pure none
  | named name =>
    rw [arg, map_eq_pure_bind]
    exact (stays_named name).bind fun _ => stays_pure _
  | malformed => exact stays_throw _

theorem stays_cell (name : Option String) : (cell name : Attempt β (String × Cell)).Stays := by
  refine (stays_field name).bind fun name => stays_get.bind fun world => ?_
  split
  · exact stays_throw _
  · exact stays_pure _

theorem stays_newCellName (name : Option String) : (newCellName name : Attempt β String).Stays :=
  (stays_field name).bind fun _ => stays_get.bind fun _ => (stays_require _ _).bind fun _ =>
    stays_pure _

/-! ## What is found -/

/-- A named handle is there, and no operation has it to itself. -/
theorem named_run {name : String} {holder : Holder}
    (hrun : (named name : Attempt β Holder).run world = .ok (holder, next)) :
    holder ∈ world.holders ∧ holder.exclusive = false := by
  have hrest := bind_get hrun
  split at hrest
  · exact (run_throw.mp hrest).elim
  · rename_i found hfound
    split at hrest
    · exact (run_throw.mp hrest).elim
    · rename_i hshared
      obtain ⟨rfl, -⟩ := run_pure.mp hrest
      exact ⟨List.mem_of_find?_eq_some hfound, Bool.eq_false_iff.mpr hshared⟩

variable {result : γ}

theorem bind_handle {name : Option String} {rest : Holder → Attempt β γ}
    (hrun : (handle name >>= rest).run world = .ok (result, next)) :
    ∃ holder ∈ world.holders, holder.exclusive = false ∧
      (rest holder).run world = .ok (result, next) := by
  obtain ⟨holder, hhandle, hrest⟩ := bind_stays (stays_handle name) hrun
  obtain ⟨name, -, hnamed⟩ := bind_field hhandle
  obtain ⟨hholder, hshared⟩ := named_run hnamed
  exact ⟨holder, hholder, hshared, hrest⟩

theorem arg_run {argument : Arg} {holder : Option Holder}
    (hrun : (arg argument : Attempt β (Option Holder)).run world = .ok (holder, next)) :
    ∀ found, holder = some found → found ∈ world.holders ∧ found.exclusive = false := by
  cases argument with
  | empty =>
    obtain ⟨rfl, -⟩ := run_pure.mp hrun
    simp
  | named name =>
    rw [arg, map_eq_pure_bind] at hrun
    obtain ⟨found, hnamed, hrest⟩ := bind_stays (stays_named name) hrun
    obtain ⟨rfl, -⟩ := run_pure.mp hrest
    rintro other heq
    exact Option.some.inj heq ▸ named_run hnamed
  | malformed => exact (run_throw.mp hrun).elim

theorem bind_arg {argument : Arg} {rest : Option Holder → Attempt β γ}
    (hrun : (arg argument >>= rest).run world = .ok (result, next)) :
    ∃ holder, (∀ found, holder = some found →
        found ∈ world.holders ∧ found.exclusive = false) ∧
      (rest holder).run world = .ok (result, next) := by
  obtain ⟨holder, harg, hrest⟩ := bind_stays (stays_arg argument) hrun
  exact ⟨holder, arg_run harg, hrest⟩

theorem cell_run {name : Option String} {found : String} {present : Cell}
    (hrun : (cell name : Attempt β (String × Cell)).run world = .ok ((found, present), next)) :
    name = some found ∧ world.cell? found = some present := by
  obtain ⟨given, rfl, hlookup⟩ := bind_field hrun
  have hfound := bind_get hlookup
  split at hfound
  · exact (run_throw.mp hfound).elim
  · rename_i cell hcell
    obtain ⟨heq, -⟩ := run_pure.mp hfound
    obtain ⟨rfl, rfl⟩ := Prod.mk.inj heq
    exact ⟨rfl, hcell⟩

theorem bind_cell {name : Option String} {rest : String × Cell → Attempt β γ}
    (hrun : (cell name >>= rest).run world = .ok (result, next)) :
    ∃ name cell, world.cell? name = some cell ∧
      (rest (name, cell)).run world = .ok (result, next) := by
  obtain ⟨⟨found, cell⟩, hcell, hrest⟩ := bind_stays (stays_cell name) hrun
  exact ⟨found, cell, (cell_run hcell).2, hrest⟩

theorem newCellName_run {name : Option String} {found : String}
    (hrun : (newCellName name : Attempt β String).run world = .ok (found, next)) :
    name = some found ∧ world.cell? found = none := by
  obtain ⟨given, rfl, hlookup⟩ := bind_field hrun
  obtain ⟨hnone, hlookup⟩ := bind_require (bind_get hlookup)
  obtain ⟨rfl, -⟩ := run_pure.mp hlookup
  exact ⟨rfl, Option.isNone_iff_eq_none.mp hnone⟩

theorem bind_newCellName {name : Option String} {rest : String → Attempt β γ}
    (hrun : (newCellName name >>= rest).run world = .ok (result, next)) :
    ∃ name, world.cell? name = none ∧ (rest name).run world = .ok (result, next) := by
  obtain ⟨found, hfound, hrest⟩ := bind_stays (stays_newCellName name) hrun
  exact ⟨found, (newCellName_run hfound).2, hrest⟩

theorem pull_run {name : Option String} {unit : ObjectId}
    (hrun : (pull name : Attempt β ObjectId).run world = .ok (unit, next)) :
    ∃ holder ∈ world.holders, holder.users = 0 ∧ unit = holder.unit ∧
      next = world.eraseHolder holder.id := by
  obtain ⟨holder, hholder, -, hrest⟩ := bind_handle hrun
  obtain ⟨hunused, hrest⟩ := bind_require hrest
  have herased := bind_modify hrest
  obtain ⟨rfl, rfl⟩ := run_pure.mp herased
  exact ⟨holder, hholder, of_decide_eq_true hunused, rfl, rfl⟩

end Attempt

end SharedCell
