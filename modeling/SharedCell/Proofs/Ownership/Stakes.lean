import Mathlib
import SharedCell.Agenda

/-!
# Stakes

What the frames of all threads have at stake in the world: the units that they own, the handles and
cells that they use, the calls that they are making, and the objects whose payloads they are about
to change.
-/

namespace SharedCell

@[ext]
structure Stakes where
  units : Multiset ObjectId := 0
  /-- The handles that are to be given up; a call keeps its own besides. -/
  uses : Multiset ℕ := 0
  /-- The cells that are to be left; a call keeps its own besides. -/
  visits : Multiset String := 0
  calls : Multiset Call := 0
  /-- The handles through which payloads are about to be changed, with their objects. -/
  mutations : Multiset (ℕ × ObjectId) := 0

namespace Stakes

instance : Zero Stakes := ⟨{}⟩

instance : Add Stakes where
  add left right :=
    { units := left.units + right.units
      uses := left.uses + right.uses
      visits := left.visits + right.visits
      calls := left.calls + right.calls
      mutations := left.mutations + right.mutations }

section Projections

variable (left right : Stakes)

@[simp]
theorem zero_units : (0 : Stakes).units = 0 := rfl

@[simp]
theorem zero_uses : (0 : Stakes).uses = 0 := rfl

@[simp]
theorem zero_visits : (0 : Stakes).visits = 0 := rfl

@[simp]
theorem zero_calls : (0 : Stakes).calls = 0 := rfl

@[simp]
theorem zero_mutations : (0 : Stakes).mutations = 0 := rfl

@[simp]
theorem add_units : (left + right).units = left.units + right.units := rfl

@[simp]
theorem add_uses : (left + right).uses = left.uses + right.uses := rfl

@[simp]
theorem add_visits : (left + right).visits = left.visits + right.visits := rfl

@[simp]
theorem add_calls : (left + right).calls = left.calls + right.calls := rfl

@[simp]
theorem add_mutations : (left + right).mutations = left.mutations + right.mutations := rfl

end Projections

instance : AddCommMonoid Stakes where
  add_assoc left middle right := by ext1 <;> simp [add_assoc]
  zero_add stakes := by ext1 <;> simp
  add_zero stakes := by ext1 <;> simp
  add_comm left right := by ext1 <;> simp [add_comm]
  nsmul := nsmulRec

/-- Units in hand. -/
def unitsOn (objs : Multiset ObjectId) : Stakes := { units := objs }

def useOf (holder : ℕ) : Stakes := { uses := {holder} }

def visitTo (cell : String) : Stakes := { visits := {cell} }

def making (call : Call) : Stakes := { calls := {call} }

def changing (holder : ℕ) (obj : ObjectId) : Stakes := { mutations := {(holder, obj)} }

end Stakes

namespace Chore

def stakes : Chore → Stakes
  | .release unit | .store _ unit => .unitsOn {unit}
  | .endUse holder => .useOf holder
  | .leaveCell cell => .visitTo cell
  | .join | .resume => 0

end Chore

namespace Frame

def stakes : Frame → Stakes
  | .call active => .making active
  | .mutate holder obj _ _ => .changing holder obj
  | .tidy chores _ => (chores.map Chore.stakes).sum
  | .script .. | .surrender _ | .rounds .. | .race _ | .stress _ => 0

end Frame

/-- What is at stake for frames taken together. -/
def stakesOf (frames : List Frame) : Stakes :=
  (frames.map Frame.stakes).sum

@[simp]
theorem stakesOf_nil : stakesOf [] = 0 := rfl

@[simp]
theorem stakesOf_cons (frame : Frame) (frames : List Frame) :
    stakesOf (frame :: frames) = frame.stakes + stakesOf frames :=
  List.sum_cons

@[simp]
theorem stakesOf_append (front back : List Frame) :
    stakesOf (front ++ back) = stakesOf front + stakesOf back := by
  rw [stakesOf, List.map_append, List.sum_append, stakesOf, stakesOf]

namespace Stakes

/-- The units that frames own, those of calls in progress included. -/
def inHand (stakes : Stakes) : Multiset ObjectId :=
  stakes.units + stakes.calls.bind fun call => ↑call.stage.units

/-- The handles in use, as often as they are used. -/
def used (stakes : Stakes) : Multiset ℕ :=
  stakes.uses + (stakes.calls.bind fun call => ↑call.holders) + stakes.mutations.map Prod.fst

/-- The cells in use, as often as they are used. -/
def visited (stakes : Stakes) : Multiset String :=
  stakes.visits + stakes.calls.map Call.cell

/-- Calls on an agenda are in progress. -/
theorem mem_calls_of_mem {call : Call} {frames : List Frame} (hcall : Frame.call call ∈ frames) :
    call ∈ (stakesOf frames).calls := by
  obtain ⟨front, back, rfl⟩ := List.append_of_mem hcall
  simp [Frame.stakes, making]

/-- Chores make no calls. -/
theorem calls_chores (chores : List Chore) : (chores.map Chore.stakes).sum.calls = 0 := by
  induction chores with
  | nil => rfl
  | cons chore chores ih =>
    rw [List.map_cons, List.sum_cons, add_calls, ih]
    cases chore <;> rfl

/-- Calls in progress are on an agenda. -/
theorem mem_of_mem_calls {call : Call} {frames : List Frame}
    (hcall : call ∈ (stakesOf frames).calls) : Frame.call call ∈ frames := by
  induction frames with
  | nil => cases hcall
  | cons frame frames ih =>
    rw [stakesOf_cons, add_calls, Multiset.mem_add] at hcall
    rcases hcall with hhead | htail
    · cases frame with
      | call active => exact Multiset.mem_singleton.mp hhead ▸ List.mem_cons_self
      | tidy chores reply =>
        rw [Frame.stakes, calls_chores] at hhead
        cases hhead
      | _ => cases hhead
    · exact List.mem_cons_of_mem frame (ih htail)

/-- Handles in use. -/
def usesOf (holders : List ℕ) : Stakes := { uses := holders }

section Parts

variable (left right stakes : Stakes)

@[simp]
theorem inHand_zero : (0 : Stakes).inHand = 0 := rfl

@[simp]
theorem used_zero : (0 : Stakes).used = 0 := rfl

@[simp]
theorem visited_zero : (0 : Stakes).visited = 0 := rfl

@[simp]
theorem inHand_add : (left + right).inHand = left.inHand + right.inHand := by
  simp only [inHand, add_units, add_calls, Multiset.add_bind]
  abel

@[simp]
theorem used_add : (left + right).used = left.used + right.used := by
  simp only [used, add_uses, add_calls, add_mutations, Multiset.add_bind, Multiset.map_add]
  abel

@[simp]
theorem visited_add : (left + right).visited = left.visited + right.visited := by
  simp only [visited, add_visits, add_calls, Multiset.map_add]
  abel

@[simp]
theorem unitsOn_parts (objs : Multiset ObjectId) :
    (unitsOn objs).inHand = objs ∧ (unitsOn objs).used = 0 ∧ (unitsOn objs).visited = 0 ∧
      (unitsOn objs).calls = 0 ∧ (unitsOn objs).mutations = 0 := by
  simp [unitsOn, inHand, used, visited]

@[simp]
theorem unitsOn_zero : unitsOn 0 = 0 := rfl

theorem unitsOn_add (objs others : Multiset ObjectId) :
    unitsOn (objs + others) = unitsOn objs + unitsOn others := rfl

@[simp]
theorem useOf_parts (holder : ℕ) :
    (useOf holder).inHand = 0 ∧ (useOf holder).used = {holder} ∧ (useOf holder).visited = 0 ∧
      (useOf holder).calls = 0 ∧ (useOf holder).mutations = 0 := by
  simp [useOf, inHand, used, visited]

@[simp]
theorem usesOf_parts (holders : List ℕ) :
    (usesOf holders).inHand = 0 ∧ (usesOf holders).used = ↑holders ∧
      (usesOf holders).visited = 0 ∧ (usesOf holders).calls = 0 ∧
      (usesOf holders).mutations = 0 := by
  simp [usesOf, inHand, used, visited]

@[simp]
theorem usesOf_nil : usesOf [] = 0 := rfl

theorem usesOf_cons (holder : ℕ) (holders : List ℕ) :
    usesOf (holder :: holders) = useOf holder + usesOf holders := by
  ext1 <;> simp [usesOf, useOf]

@[simp]
theorem visitTo_parts (cell : String) :
    (visitTo cell).inHand = 0 ∧ (visitTo cell).used = 0 ∧ (visitTo cell).visited = {cell} ∧
      (visitTo cell).calls = 0 ∧ (visitTo cell).mutations = 0 := by
  simp [visitTo, inHand, used, visited]

@[simp]
theorem making_parts (call : Call) :
    (making call).inHand = ↑call.stage.units ∧ (making call).used = ↑call.holders ∧
      (making call).visited = {call.cell} ∧ (making call).calls = {call} ∧
      (making call).mutations = 0 := by
  simp [making, inHand, used, visited]

@[simp]
theorem changing_parts (holder : ℕ) (obj : ObjectId) :
    (changing holder obj).inHand = 0 ∧ (changing holder obj).used = {holder} ∧
      (changing holder obj).visited = 0 ∧ (changing holder obj).calls = 0 ∧
      (changing holder obj).mutations = {(holder, obj)} := by
  simp [changing, inHand, used, visited]

/-- A call keeps its handles in use. -/
theorem mem_used_of_call {call : Call} {id : ℕ} (hcall : call ∈ stakes.calls)
    (hid : id ∈ call.holders) : id ∈ stakes.used := by
  rw [used, Multiset.mem_add, Multiset.mem_add, Multiset.mem_bind]
  exact .inl (.inr ⟨call, hcall, hid⟩)

/-- So does an operation that changes a payload. -/
theorem mem_used_of_mutation {id : ℕ} {obj : ObjectId}
    (hmutation : (id, obj) ∈ stakes.mutations) : id ∈ stakes.used := by
  rw [used, Multiset.mem_add]
  exact .inr (Multiset.mem_map_of_mem Prod.fst hmutation)

/-- A call keeps its cell in use. -/
theorem mem_visited_of_call {call : Call} (hcall : call ∈ stakes.calls) :
    call.cell ∈ stakes.visited := by
  rw [visited, Multiset.mem_add]
  exact .inr (Multiset.mem_map_of_mem Call.cell hcall)

end Parts

end Stakes

end SharedCell
