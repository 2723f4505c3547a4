import Mathlib
import SharedCell.Proofs.Ownership.Step
import SharedCell.Proofs.Solo.Registers

/-!
# Calls in progress

What a step of a thread makes of the calls on its agenda: the one on top goes on or ends, an
operation begins another one, or all of them stay as they are.
-/

namespace SharedCell

variable {β : Type} [Resident β]

open Stakes

omit [Resident β] in
theorem Frame.Quiet.calls {frame : Frame} (hquiet : frame.Quiet) : frame.stakes.calls = 0 := by
  cases frame with
  | call active => exact hquiet.elim
  | tidy chores reply => exact calls_chores chores
  | _ => rfl

omit [Resident β] in
/-- What is opened on top of a frame makes no calls. -/
theorem calls_opened {opened : List Frame}
    (hopened : opened = [] ∨ ∃ other, opened = [other] ∧ other.Quiet) :
    (stakesOf opened).calls = 0 := by
  rcases hopened with rfl | ⟨other, rfl, hquiet⟩
  · rfl
  · rw [stakesOf_cons, stakesOf_nil, add_zero, hquiet.calls]

theorem calls_affect (world : World β) (thread : ℕ) (guard : Guard) (effect : Option Effect) :
    (stakesOf (Call.affect world thread guard effect).2).calls = 0 := by
  rcases Call.affect_cases world thread guard effect with hnone | ⟨-, frame, -, hframe, hquiet⟩
  · exact calls_opened (.inl hnone)
  · exact calls_opened (.inr ⟨frame, hframe, hquiet⟩)

namespace Frame

/-- What a step makes of the calls that are in progress before it. -/
inductive Turnover (world next : World β) (agenda : List Frame) (before after : Multiset Call) :
    Prop where
  | same (hafter : after = before)
  | begun (call : Call) (cell : Cell) (hcell : next.cell? call.cell = some cell)
      (hopening : call.stage = call.action.opening cell.kind) (hafter : after = call ::ₘ before)
  | advanced (call : Call) (below : List Frame) (cell : Cell) (slot : Slot) (stage : Stage)
      (effect : Option Effect) (others : Multiset Call) (hagenda : agenda = .call call :: below)
      (hcell : world.cell? call.cell = some cell)
      (hstage : call.stage.step cell.kind cell.guard call.action world.facts world.shape
        cell.slot = some (slot, stage, effect))
      (hslot : next.cell? call.cell = some { cell with slot })
      (hbefore : before = call ::ₘ others) (hafter : after = { call with stage } ::ₘ others)
  | ended (call : Call) (below : List Frame) (outcome : Outcome)
      (hagenda : agenda = .call call :: below) (hfinished : call.stage = .finished outcome)
      (hbefore : before = call ::ₘ after)

variable {thread : ℕ} {world next : World β} {agenda later : List Frame}
  {before after : Multiset Call}

/-- What becomes of some of the calls, and what does not become of others. -/
theorem Turnover.add (hturnover : Turnover world next agenda before after)
    (others : Multiset Call) : Turnover world next agenda (before + others) (after + others) := by
  cases hturnover with
  | same hafter => exact .same (by rw [hafter])
  | begun call cell hcell hopening hafter =>
    exact .begun call cell hcell hopening (by rw [hafter, Multiset.cons_add])
  | advanced call below cell slot stage effect rest hagenda hcell hstage hslot hbefore hafter =>
    exact .advanced call below cell slot stage effect (rest + others) hagenda hcell hstage hslot
      (by rw [hbefore, Multiset.cons_add]) (by rw [hafter, Multiset.cons_add])
  | ended call below outcome hagenda hfinished hbefore =>
    exact .ended call below outcome hagenda hfinished (by rw [hbefore, Multiset.cons_add])

/-- What becomes of the calls on one cell. -/
theorem Turnover.onCell (hturnover : Turnover world next agenda before after) (name : String) :
    Turnover world next agenda (before.filter (·.cell = name)) (after.filter (·.cell = name)) := by
  have hkeep (call : Call) (others : Multiset Call) (hname : call.cell = name) :
      (call ::ₘ others).filter (·.cell = name) = call ::ₘ others.filter (·.cell = name) :=
    Multiset.filter_cons_of_pos (p := (·.cell = name)) others hname
  have hdrop (call : Call) (others : Multiset Call) (hname : call.cell ≠ name) :
      (call ::ₘ others).filter (·.cell = name) = others.filter (·.cell = name) :=
    Multiset.filter_cons_of_neg (p := (·.cell = name)) others hname
  cases hturnover with
  | same hafter => exact .same (by rw [hafter])
  | begun call cell hcell hopening hafter =>
    by_cases hname : call.cell = name
    · exact .begun call cell hcell hopening (by rw [hafter, hkeep call before hname])
    · exact .same (by rw [hafter, hdrop call before hname])
  | advanced call below cell slot stage effect others hagenda hcell hstage hslot hbefore hafter =>
    by_cases hname : call.cell = name
    · exact .advanced call below cell slot stage effect _ hagenda hcell hstage hslot
        (by rw [hbefore, hkeep call others hname])
        (by rw [hafter, hkeep { call with stage } others hname])
    · exact .same (by
        rw [hbefore, hafter, hdrop call others hname, hdrop { call with stage } others hname])
  | ended call below outcome hagenda hfinished hbefore =>
    by_cases hname : call.cell = name
    · exact .ended call below outcome hagenda hfinished (by rw [hbefore, hkeep call after hname])
    · exact .same (by rw [hbefore, hdrop call after hname])

theorem turnover_begun {frame : Frame} (hopening : frame.Opening next)
    (hafter : after = frame.stakes.calls + before) : Turnover world next agenda before after := by
  cases frame with
  | call active =>
    obtain ⟨cell, hcell, hstage⟩ := hopening
    refine .begun active cell hcell hstage ?_
    rw [hafter, Frame.stakes, (making_parts active).2.2.2.1, Multiset.singleton_add]
  | tidy chores reply => exact .same (by rw [hafter, Frame.stakes, calls_chores, zero_add])
  | _ => exact .same (hafter.trans (zero_add before))

omit [Resident β] in
theorem calls_receive (world : World β) (reply : Reply) (frame : Frame) :
    (receive world reply frame).2.stakes.calls = frame.stakes.calls := by
  cases frame <;> rfl

/-- The calls of a thread after one of its steps. -/
theorem turnover_step (hordinary : ∀ frame ∈ agenda, frame.ordinary = true)
    (hstep : step thread world agenda = some (next, later)) :
    Turnover world next agenda (stakesOf agenda).calls (stakesOf later).calls := by
  have hquiet {before after : Frame} {below opened : List Frame}
      (hbefore : before.stakes.calls = 0) (hafter : after.stakes.calls = 0)
      (hopened : opened = [] ∨ ∃ other, opened = [other] ∧ other.Quiet) :
      (stakesOf (opened ++ after :: below)).calls = (stakesOf (before :: below)).calls := by
    rw [stakesOf_append, stakesOf_cons, stakesOf_cons, add_calls, add_calls, add_calls,
      calls_opened hopened, hbefore, hafter, zero_add]
  cases move_of_step hstep with
  | @call active _ frames below hactive =>
    have hcalls : (stakesOf (.call active :: below)).calls =
        active ::ₘ (stakesOf below).calls := by
      rw [stakesOf_cons, add_calls, Frame.stakes, (making_parts active).2.2.2.1,
        Multiset.singleton_add]
    rcases Call.step_cases hactive with
      ⟨outcome, hfinished, -, rfl⟩ | ⟨cell, slot, stage, effect, hcell, hstage, rfl, rfl⟩
    · refine .ended active below outcome rfl hfinished ?_
      rw [hcalls, stakesOf_append, add_calls, stakesOf_cons, stakesOf_nil, add_zero,
        Call.conclude, Frame.stakes, calls_chores, zero_add]
    · refine .advanced active below cell slot stage effect _ rfl hcell hstage ?_ hcalls ?_
      · rw [World.cell?, Call.cells_affect]
        exact World.cell?_modifyCell hcell
      · rw [stakesOf_append, stakesOf_append, add_calls, add_calls, calls_affect, zero_add,
          stakesOf_cons, stakesOf_nil, add_zero, Frame.stakes, (making_parts _).2.2.2.1,
          Multiset.singleton_add]
  | refuse | look | write => exact .same rfl
  | reply told frame below =>
    refine .same ?_
    rw [stakesOf_cons, stakesOf_cons, stakesOf_cons, add_calls, add_calls, add_calls,
      calls_receive, Frame.stakes, calls_chores, zero_add]
  | chore chore chores told below =>
    exact .same (hquiet (calls_chores _) (calls_chores _) (chore.perform_cases thread world))
  | told | surrendered | again => exact .same (by simp [Frame.stakes])
  | ended body replies below => exact .same (by simp [Frame.stakes])
  | tell owner op ops below =>
    have htop := hordinary _ List.mem_cons_self
    rw [Frame.ordinary, Operation.ordinaryAll_cons] at htop
    exact turnover_begun (op.opening_start htop.1 thread world) rfl
  | @surrender owner ref after below htake =>
    exact .same (hquiet rfl rfl (after.letGo_cases thread ref))
  | perform remaining body op ops replies below =>
    have htop := hordinary _ List.mem_cons_self
    rw [Frame.ordinary, Bool.and_eq_true, Operation.ordinaryAll_cons] at htop
    exact turnover_begun (op.opening_start htop.2.1 thread world) rfl
  | stress tally below => cases hordinary _ List.mem_cons_self

end Frame

end SharedCell
