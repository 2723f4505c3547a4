import Mathlib
import SharedCell.Proofs.Agenda.Begins
import SharedCell.Proofs.Agenda.StepBounds

/-!
# Weights of operations

The frame that an operation begins with, and the object that it makes, if it makes one, have less to
do than the weight of the operation.
-/

namespace SharedCell

open Operation

variable {β : Type}

namespace Operation

theorem weight_alloc (object : Option String) (value : Option Payload)
    (mutability : Option Mutability) (refs : List (Option String)) (script : List Operation) :
    (alloc object value mutability refs script).weight =
      2 * callWeight + callWeight * refs.length + weightAll script :=
  rfl

theorem weight_rounds (count : ℕ) (body : List Operation) :
    (rounds (some count) (some body)).weight =
      callWeight + min count roundLimit * (1 + weightAll body) :=
  rfl

theorem callWeight_le_weight (op : Operation) : callWeight ≤ op.weight := by
  have hmany (count : ℕ) : callWeight ≤ callWeight * (count + 2) :=
    Nat.le_mul_of_pos_right _ (Nat.succ_pos _)
  cases op with
  | alloc object value mutability refs script =>
    rw [weight_alloc, callWeight]
    omega
  | rounds count body =>
    rcases count with - | count
    · exact le_rfl
    · rcases body with - | body
      · exact le_rfl
      · rw [weight_rounds]
        exact Nat.le_add_right _ _
  | race cell timing reader script target =>
    rcases script with - | script
    · exact le_rfl
    · exact Nat.le_add_right_of_le (hmany script.length)
  | stress cell count threads counted =>
    rcases count with - | count
    · exact le_rfl
    · rcases threads with - | threads
      · exact le_rfl
      · exact Nat.le_add_right_of_le (Nat.le_mul_of_pos_left _ Nat.two_pos)
  | _ => exact le_rfl

end Operation

namespace Attempt

/-- Worlds with the same to do. -/
def Even (world next : World β) : Prop :=
  next.cost = world.cost

theorem even_lax : World.Lax (@Even β) where
  tables hobjects _ := World.cost_of_objects hobjects
  use _ _ _ _ := rfl
  trans hfirst hsecond := hsecond.trans hfirst

theorem cost_opening (kind : CellKind) (action : Action) : (action.opening kind).cost ≤ 15 := by
  unfold Action.opening
  split <;> simp [Stage.cost]

theorem brief_tidy {chores : List Chore} (hfew : chores.length ≤ 2) (reply : Reply) :
    (Frame.tidy chores reply).Brief callWeight := by
  refine ⟨trivial, ?_⟩
  simp only [Frame.cost, callWeight]
  omega

/-- The frame of a single operation has far less to do than the weight of a call. -/
theorem brief_initial {world : World β} {frame : Frame} (hinitial : frame.Initial world) :
    frame.Brief callWeight := by
  cases hinitial with
  | chores hfew reply => exact brief_tidy hfew reply
  | request => exact ⟨trivial, by simp [Frame.cost, callWeight]⟩
  | @call active cell _ hstage hfew =>
    have hopening := cost_opening cell.kind active.action
    refine ⟨trivial, ?_⟩
    rw [← hstage] at hopening
    simp only [Frame.cost, callWeight]
    omega

theorem cost_rounds {count : ℕ} (hcount : count ≠ 0) (body : List Operation) :
    (Frame.rounds (count - 1) body body []).cost = count * (weightAll body + 1) + 1 := by
  obtain ⟨fewer, rfl⟩ := Nat.exists_eq_succ_of_ne_zero hcount
  simp only [Frame.cost, Nat.succ_sub_one, Nat.succ_mul]
  omega

/-- An operation that is repeated has its weight each time. -/
theorem yields_rounds (count : Option ℕ) (body : Option (List Operation)) :
    (startRounds count body : Attempt β Frame).Yields
      (Frame.Brief (rounds count body).weight) := by
  intro world frame next hrun
  obtain ⟨count, rfl, hbody⟩ := bind_field hrun
  obtain ⟨body, rfl, hrest⟩ := bind_field hbody
  rw [weight_rounds]
  split at hrest
  · obtain ⟨rfl, -⟩ := run_pure.mp hrest
    refine ⟨trivial, ?_⟩
    simp only [Frame.cost, callWeight, List.length_nil]
    omega
  · rename_i hcount
    obtain ⟨rfl, -⟩ := run_pure.mp hrest
    refine ⟨trivial, ?_⟩
    rw [cost_rounds hcount, Nat.add_comm 1, callWeight]
    omega

variable [Resident β] {thread : ℕ}

/-- An operation that makes no object and does not repeat others has a frame of its own only. -/
theorem yields_begin {op : Operation} (hordinary : op.ordinary = true)
    (hexisting : op.allocates = false) (hsingle : ∀ count body, op ≠ .rounds count body) :
    (begin? thread op : Attempt β Frame).Yields (Frame.Brief callWeight) :=
  fun world frame next hrun =>
    brief_initial (starts_begin hordinary hexisting hsingle world frame next hrun)

theorem even_admits (world : World β) (op : Operation) : world.Admits thread op Even where
  lenient := even_lax.lenient thread
  acquire _ _ before := before.cost_acquire thread _
  freeze _ _ _ := World.cost_modifyObject fun _ => rfl
  make _ _ _ _ _ := World.cost_of_objects rfl
  erase _ _ := World.cost_of_objects rfl

/-- What the destruction of all objects takes is the same after it. -/
theorem even_begin {op : Operation} (hordinary : op.ordinary = true)
    (hexisting : op.allocates = false) :
    (begin? thread op : Attempt β Frame).Relates Even :=
  fun world _ _ hrun => begin_relates hordinary hexisting (even_admits world op) hrun

/-- An allocation acquires one unit for each of its references at most. -/
theorem length_gather (thread : ℕ) (refs : List (Option String)) (world : World β) :
    (gather thread refs world).2.1.length ≤ refs.length := by
  induction refs generalizing world with
  | nil => exact le_rfl
  | cons ref refs ih =>
    rw [gather]
    split
    · exact Nat.zero_le _
    · exact Nat.succ_le_succ (ih _)

theorem cost_alloc {object : Option String} {value : Option Payload}
    {mutability : Option Mutability} {refs : List (Option String)} {script : List Operation}
    {world next : World β} {frame : Frame}
    (hrun : (startAlloc thread object value mutability refs script : Attempt β Frame).run world =
      .ok (frame, next)) :
    frame.Brief (refs.length + 2) ∧
      next.cost + frame.cost ≤ world.cost + refs.length + weightAll script + 3 := by
  have hcost : (gather thread refs world).1.cost = world.cost :=
    gather_relates (even_admits world (.alloc object value mutability refs script)) refs
  have hlength := length_gather thread refs world
  rcases alloc_run hrun with
    ⟨fault, rfl, rfl⟩ | ⟨name, mutability, payload, body, -, added, obj, hadd, rfl, rfl⟩
  · refine ⟨⟨trivial, ?_⟩, ?_⟩ <;> simp only [Frame.cost, List.length_map] <;> omega
  · have hadded := (gather thread refs world).1.cost_addObject
      { name, body, refs := (gather thread refs world).2.1, script }
    simp only [hadd] at hadded
    have hobjects : (added.addHolder name obj).cost = added.cost := World.cost_of_objects rfl
    have hobject : ({ name, body, refs := (gather thread refs world).2.1, script } : Object β).cost =
        (gather thread refs world).2.1.length + (weightAll script + 2) := rfl
    refine ⟨⟨trivial, ?_⟩, ?_⟩ <;> simp only [Frame.cost, List.length_nil] <;> omega

end Attempt

namespace Operation

theorem brief_weight {frame : Frame} (hbrief : frame.Brief callWeight) (op : Operation) :
    frame.Brief op.weight :=
  ⟨hbrief.1, Nat.lt_of_lt_of_le hbrief.2 (callWeight_le_weight op)⟩

variable [Resident β] {op : Operation}

/-- An operation begins with less to do than its weight. -/
theorem cost_start (hordinary : op.ordinary = true) (thread : ℕ) (world : World β) :
    (op.start thread world).2.Brief op.weight ∧
      (op.start thread world).1.cost + (op.start thread world).2.cost < world.cost + op.weight := by
  unfold start
  split
  · rename_i frame next hrun
    by_cases hexisting : op.allocates = true
    · cases op with
      | alloc object value mutability refs script =>
        obtain ⟨⟨hanswers, hframe⟩, hcost⟩ := Attempt.cost_alloc hrun
        rw [weight_alloc]
        simp only [callWeight]
        exact ⟨⟨hanswers, by omega⟩, by omega⟩
      | _ => cases hexisting
    · have heven : next.cost = world.cost :=
        Attempt.even_begin hordinary (Bool.eq_false_iff.mpr hexisting) _ _ _ hrun
      have hbrief : frame.Brief op.weight := by
        by_cases hrounds : ∃ count body, op = .rounds count body
        · obtain ⟨count, body, rfl⟩ := hrounds
          exact Attempt.yields_rounds count body _ _ _ hrun
        · have hsingle : ∀ count body, op ≠ .rounds count body :=
            fun count body heq => hrounds ⟨count, body, heq⟩
          exact brief_weight (Attempt.yields_begin hordinary (Bool.eq_false_iff.mpr hexisting)
            hsingle _ _ _ hrun) op
      exact ⟨hbrief, heven ▸ Nat.add_lt_add_left hbrief.2 _⟩
  · have hbrief (fault : Fault) : (Frame.tidy [] (.fault fault)).Brief op.weight :=
      brief_weight (Attempt.brief_tidy (by decide) _) op
    exact ⟨hbrief _, Nat.add_lt_add_left (hbrief _).2 _⟩

end Operation

end SharedCell
