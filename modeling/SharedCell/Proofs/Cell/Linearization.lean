import Mathlib
import SharedCell.Proofs.Cell.LinearizationPoints

/-!
# Linearization

The calls on a cell that have ended, together with those in progress that have already replaced the
content, can be put in one order in which each of them acts on a register in a single step.  A call
that ended before another began comes first.
-/

namespace SharedCell

/-- A call in a sequential order, with its outcome and what it stored. -/
structure Entry where
  number : ℕ
  action : Action
  outcome : Outcome
  stored : Option (Option ObjectId)

/-- Calls that act on a register one after the other, each with an answer that it has there. -/
def Register.Runs (kind : CellKind) (guard : Guard) : Register → List Entry → Register → Prop
  | register, [], final => final = register
  | register, entry :: entries, final =>
      Answers kind guard entry.action register entry.outcome entry.stored ∧
        (register.after entry.stored).Runs kind guard entries final

/-- An order of the calls on a cell that explains all that can be told of them. -/
structure Linearization (kind : CellKind) (guard : Guard) (start : Register) (traffic : Traffic)
    (order : List Entry) : Prop where
  /-- One after the other the calls lead from the first register to the present one. -/
  legal : start.Runs kind guard order traffic.slot.register
  once : (order.map Entry.number).Nodup
  began : ∀ entry ∈ order, ∃ thread, .began entry.number thread entry.action ∈ traffic.history
  /-- A call that has ended is there with its outcome. -/
  ended : ∀ number outcome, .ended number outcome ∈ traffic.history →
    ∃ entry ∈ order, entry.number = number ∧ entry.outcome = outcome
  /-- The calls that have replaced the content are there, and no other call stored anything. -/
  stored : ∀ number, .stored number ∈ traffic.history ↔
    ∃ entry ∈ order, entry.number = number ∧ entry.stored.isSome
  /-- Nothing else is there. -/
  only : ∀ entry ∈ order, .ended entry.number entry.outcome ∈ traffic.history ∨
    (.stored entry.number ∈ traffic.history ∧
      ∀ outcome, .ended entry.number outcome ∉ traffic.history)
  /-- A call that ended before another began comes first. -/
  realTime : ∀ first ∈ order, ∀ second ∈ order, ∀ outcome thread action,
    List.Sublist [.ended first.number outcome, .began second.number thread action]
      traffic.history → List.Sublist [first, second] order
  /-- The version counts the replacements. -/
  version : traffic.slot.version = start.version + order.countP (·.stored.isSome)

variable {kind : CellKind} {guard : Guard} {start : Register} {traffic : Traffic}
  {turns : List Turn}

/-- A call that took effect can still end in some way. -/
theorem Stage.Settled.answered {action : Action} {seen : Register} {stage : Stage}
    {stored : Option (Option ObjectId)} (hsettled : stage.Settled kind guard action seen stored) :
    ∃ outcome, Answers kind guard action seen outcome stored := by
  have hlater : ∀ later : Stage, (∀ phase, later ≠ .calling phase) →
      later.Settled kind guard action seen stored →
        ∃ outcome, Answers kind guard action seen outcome stored := by
    intro later hphase hlater
    cases later with
    | asking new errand => exact hlater.elim
    | calling phase => exact absurd rfl (hphase phase)
    | writing unit version =>
      obtain ⟨rfl, -, -, layout, rfl⟩ := hlater
      exact ⟨_, .showText seen layout fun _ => .leaf ""⟩
    | vetting unit =>
      obtain ⟨rfl, rfl, -⟩ := hlater
      exact ⟨_, .vetted seen⟩
    | _ => exact ⟨_, hlater⟩
  cases stage with
  | calling phase =>
    obtain ⟨-, rfl⟩ := hsettled
    refine hlater _ ?_ (settled_received kind guard action seen)
    intro phase
    cases action <;> simp only [received, giveBack] <;> (try split) <;> simp
  | _ => exact hlater _ (by simp) hsettled

namespace Turn

/-- The entry of a call, given what it ends with. -/
def entry (ends : Turn → Outcome) (turn : Turn) : Entry where
  number := turn.number
  action := turn.action
  outcome := ends turn
  stored := turn.stored

end Turn

/-- The calls that the order lists: those that have replaced the content or ended. -/
def Traffic.Counts (traffic : Traffic) (turn : Turn) : Prop :=
  turn.stored.isSome ∨ ∃ outcome, .ended turn.number outcome ∈ traffic.history

theorem Register.Chain.runs {register final : Register} (ends : Turn → Outcome)
    (hchain : register.Chain turns final)
    (hanswers : ∀ turn ∈ turns,
      Answers kind guard turn.action turn.seen (ends turn) turn.stored) :
    register.Runs kind guard (turns.map (Turn.entry ends)) final := by
  induction turns generalizing register with
  | nil => exact hchain
  | cons turn turns ih =>
    obtain ⟨rfl, htail⟩ := hchain
    exact ⟨hanswers turn List.mem_cons_self,
      ih htail fun other hmem => hanswers other (List.mem_cons_of_mem turn hmem)⟩

namespace Traffic.Ordered

/-- Each call that took effect has an outcome to be listed with: the one that it ended with, or any
that it can still end with. -/
theorem exists_ends (hordered : traffic.Ordered kind guard start turns) :
    ∃ ends : Turn → Outcome, ∀ turn ∈ turns,
      Answers kind guard turn.action turn.seen (ends turn) turn.stored ∧
        ∀ outcome, .ended turn.number outcome ∈ traffic.history → ends turn = outcome := by
  have hsame : ∀ turn ∈ turns, ∀ other ∈ turns, turn.number = other.number → turn = other :=
    fun turn hturn other hother => List.inj_on_of_nodup_map hordered.once hturn hother
  have hends : ∀ turn, ∃ outcome, turn ∈ turns →
      Answers kind guard turn.action turn.seen outcome turn.stored ∧
        ∀ other, .ended turn.number other ∈ traffic.history → outcome = other := by
    intro turn
    by_cases hturn : turn ∈ turns
    · by_cases hended : ∃ outcome, .ended turn.number outcome ∈ traffic.history
      · obtain ⟨outcome, hended⟩ := hended
        obtain ⟨-, -, other, hother, heq, hanswers⟩ := hordered.ended _ _ hended
        obtain rfl := hsame turn hturn other hother heq.symm
        exact ⟨outcome, fun _ => ⟨hanswers, fun other hother =>
          hordered.same _ _ _ hended hother⟩⟩
      · rcases hordered.present turn hturn with hcall | hgone
        · obtain ⟨call, hmem, heq⟩ := List.mem_map.mp hcall
          rcases hordered.stands call hmem with ⟨hnone, -⟩ | ⟨other, hother, heq', -, hsettled⟩
          · exact absurd heq.symm (hnone turn hturn)
          · obtain rfl := hsame turn hturn other hother (heq'.trans heq).symm
            obtain ⟨outcome, hanswers⟩ := hsettled.answered
            exact ⟨outcome, fun _ => ⟨hanswers, fun other hother =>
              absurd ⟨other, hother⟩ hended⟩⟩
        · exact absurd hgone hended
    · exact ⟨.done, fun hmem => absurd hmem hturn⟩
  exact Classical.skolem.mp hends

/-- Calls that are still in progress and have stored nothing are left out. -/
theorem linearization (hordered : traffic.Ordered kind guard start turns) :
    ∃ order, Linearization kind guard start traffic order := by
  classical
  obtain ⟨ends, hends⟩ := hordered.exists_ends
  let keep (turn : Turn) : Bool := decide (traffic.Counts turn)
  have hkept : ∀ turn, turn ∈ turns.filter keep ↔ turn ∈ turns ∧ traffic.Counts turn := by
    intro turn
    rw [List.mem_filter, decide_eq_true_iff]
  have hchain : start.Chain (turns.filter keep) traffic.slot.register :=
    hordered.chain.filter keep fun turn _ hsome => decide_eq_true (.inl hsome)
  have hentry : ∀ entry ∈ (turns.filter keep).map (Turn.entry ends),
      ∃ turn ∈ turns, traffic.Counts turn ∧ turn.entry ends = entry := by
    intro entry hmem
    obtain ⟨turn, hturn, heq⟩ := List.mem_map.mp hmem
    obtain ⟨hturn, hcounts⟩ := (hkept turn).mp hturn
    exact ⟨turn, hturn, hcounts, heq⟩
  have hlisted : ∀ turn ∈ turns, traffic.Counts turn →
      turn.entry ends ∈ (turns.filter keep).map (Turn.entry ends) :=
    fun turn hturn hcounts => List.mem_map_of_mem ((hkept turn).mpr ⟨hturn, hcounts⟩)
  refine ⟨(turns.filter keep).map (Turn.entry ends), ?_⟩
  constructor
  case legal =>
    refine hchain.runs ends fun turn hmem => ?_
    exact (hends turn ((hkept turn).mp hmem).1).1
  case once =>
    rw [List.map_map]
    exact hordered.once.sublist (List.filter_sublist.map _)
  case began =>
    intro entry hmem
    obtain ⟨turn, hturn, -, rfl⟩ := hentry entry hmem
    exact hordered.began turn hturn
  case ended =>
    intro number outcome hended
    obtain ⟨-, -, turn, hturn, rfl, -⟩ := hordered.ended number outcome hended
    exact ⟨_, hlisted turn hturn (.inr ⟨outcome, hended⟩), rfl,
      (hends turn hturn).2 outcome hended⟩
  case stored =>
    intro number
    rw [hordered.stored number]
    constructor
    · rintro ⟨turn, hturn, hnumber, hsome⟩
      exact ⟨_, hlisted turn hturn (.inl hsome), hnumber, hsome⟩
    · rintro ⟨entry, hmem, hnumber, hsome⟩
      obtain ⟨turn, hturn, -, rfl⟩ := hentry entry hmem
      exact ⟨turn, hturn, hnumber, hsome⟩
  case only =>
    intro entry hmem
    obtain ⟨turn, hturn, hcounts, rfl⟩ := hentry entry hmem
    by_cases hended : ∃ outcome, .ended turn.number outcome ∈ traffic.history
    · obtain ⟨outcome, hended⟩ := hended
      obtain rfl := (hends turn hturn).2 outcome hended
      exact .inl hended
    · right
      have hsome := hcounts.resolve_right hended
      exact ⟨(hordered.stored _).mpr ⟨turn, hturn, rfl, hsome⟩,
        fun outcome hmem => hended ⟨outcome, hmem⟩⟩
  case realTime =>
    intro first hfirst second hsecond outcome thread action hpair
    obtain ⟨one, hone, hcountsOne, rfl⟩ := hentry first hfirst
    obtain ⟨two, htwo, hcountsTwo, rfl⟩ := hentry second hsecond
    have hturns := hordered.realTime one hone two htwo outcome thread action hpair
    have hfiltered : [one, two].Sublist (turns.filter keep) := by
      have hkeep : [one, two].filter keep = [one, two] := by
        simp [keep, hcountsOne, hcountsTwo]
      exact hkeep ▸ hturns.filter keep
    exact hfiltered.map (Turn.entry ends)
  case version =>
    have hversion := hchain.version
    rw [List.countP_map]
    exact hversion

end Traffic.Ordered

/-- However the calls of any number of threads on a cell interleave, they can be put in one order
that explains all that can be told of them. -/
theorem calls_linearizable (kind : CellKind) (guard : Guard) (start : Register)
    (programs : List (List Action)) (moves : List Move) :
    ∃ order, Linearization kind guard start
      ((Traffic.opening start programs).run kind guard moves) order := by
  obtain ⟨turns, hordered⟩ := (Traffic.Ordered.opening kind guard start programs).run moves
  exact hordered.linearization

end SharedCell
