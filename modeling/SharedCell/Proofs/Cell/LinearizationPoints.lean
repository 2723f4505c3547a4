import Mathlib
import SharedCell.Proofs.Cell.Answers
import SharedCell.Proofs.Cell.Interleavings
import SharedCell.Proofs.Places

/-!
# Where calls take effect

A call takes its turn when it takes effect: when it stores, when it reads what it answers with, or
when it is refused.  Each turn finds the register that the one before it left, and what a call ends
with is an answer for the register of its turn.
-/

namespace SharedCell

/-- A call that took effect, with the register that it found.  What it ends with is not yet known,
but only what can be its answer there. -/
structure Turn where
  number : ℕ
  action : Action
  seen : Register
  stored : Option (Option ObjectId)

/-- Each call finds the register that the one before it left. -/
def Register.Chain : Register → List Turn → Register → Prop
  | register, [], final => final = register
  | register, turn :: turns, final =>
      turn.seen = register ∧ (register.after turn.stored).Chain turns final

namespace Register

theorem Chain.concat {register final : Register} {turns : List Turn} {turn : Turn}
    (hchain : register.Chain turns final) (hseen : turn.seen = final) :
    register.Chain (turns ++ [turn]) (final.after turn.stored) := by
  induction turns generalizing register with
  | nil =>
    obtain rfl : final = register := hchain
    exact ⟨hseen, rfl⟩
  | cons head turns ih => exact ⟨hchain.1, ih hchain.2⟩

/-- Calls that stored nothing can be left out. -/
theorem Chain.filter {register final : Register} {turns : List Turn} (keep : Turn → Bool)
    (hchain : register.Chain turns final)
    (hkeep : ∀ turn ∈ turns, turn.stored.isSome → keep turn) :
    register.Chain (turns.filter keep) final := by
  induction turns generalizing register with
  | nil => exact hchain
  | cons turn turns ih =>
    have htail := ih hchain.2 fun other hmem => hkeep other (List.mem_cons_of_mem turn hmem)
    by_cases hturn : keep turn = true
    · rw [List.filter_cons_of_pos hturn]
      exact ⟨hchain.1, htail⟩
    · rw [List.filter_cons_of_neg hturn]
      have hnone : turn.stored = none := by
        by_contra hsome
        exact hturn (hkeep turn List.mem_cons_self (Option.isSome_iff_ne_none.mpr hsome))
      rwa [hnone] at htail

theorem Chain.version {register final : Register} {turns : List Turn}
    (hchain : register.Chain turns final) :
    final.version = register.version + turns.countP (·.stored.isSome) := by
  induction turns generalizing register with
  | nil =>
    obtain rfl : final = register := hchain
    rfl
  | cons turn turns ih =>
    rw [ih hchain.2, List.countP_cons]
    cases turn.stored <;> (simp [Register.after]; try omega)

end Register

variable {kind : CellKind} {guard : Guard} {start : Register} {traffic : Traffic}
  {turns : List Turn} {call : Running} {front back : List Running}

/-- Where a call in progress stands: either it has no turn yet, or what it ends with is an answer
for the register of its turn. -/
def Running.Stands (kind : CellKind) (guard : Guard) (register : Register) (turns : List Turn)
    (call : Running) : Prop :=
  ((∀ turn ∈ turns, turn.number ≠ call.number) ∧
      call.stage.Awaits kind call.action register) ∨
    ∃ turn ∈ turns, turn.number = call.number ∧ turn.action = call.action ∧
      call.stage.Settled kind guard turn.action turn.seen turn.stored

/-- What holds between the moves: the calls that took effect have their turns in the order in which
they did. -/
structure Traffic.Ordered (kind : CellKind) (guard : Guard) (start : Register) (traffic : Traffic)
    (turns : List Turn) : Prop where
  slot : traffic.slot.Sound (traffic.running.map (·.stage.phase))
  chain : start.Chain turns traffic.slot.register
  once : (turns.map Turn.number).Nodup
  numbers : (traffic.running.map Running.number).Nodup
  stands : ∀ call ∈ traffic.running, call.Stands kind guard traffic.slot.register turns
  running : ∀ call ∈ traffic.running,
    ∃ thread, .began call.number thread call.action ∈ traffic.history
  began : ∀ turn ∈ turns, ∃ thread, .began turn.number thread turn.action ∈ traffic.history
  earlier : ∀ number thread action, .began number thread action ∈ traffic.history →
    number < traffic.calls
  ended : ∀ number outcome, .ended number outcome ∈ traffic.history →
    number ∉ traffic.running.map Running.number ∧ number < traffic.calls ∧
      ∃ turn ∈ turns, turn.number = number ∧
        Answers kind guard turn.action turn.seen outcome turn.stored
  same : ∀ number outcome other, .ended number outcome ∈ traffic.history →
    .ended number other ∈ traffic.history → outcome = other
  present : ∀ turn ∈ turns, turn.number ∈ traffic.running.map Running.number ∨
    ∃ outcome, .ended turn.number outcome ∈ traffic.history
  stored : ∀ number, .stored number ∈ traffic.history ↔
    ∃ turn ∈ turns, turn.number = number ∧ turn.stored.isSome
  realTime : ∀ first ∈ turns, ∀ second ∈ turns, ∀ outcome thread action,
    List.Sublist [.ended first.number outcome, .began second.number thread action]
      traffic.history → List.Sublist [first, second] turns

namespace Running

/-- A call is not concerned by what another one stores: only the holder of the lock stores. -/
theorem Stands.after {register : Register} (hstands : call.Stands kind guard register turns)
    (turn : Turn) (hnumber : turn.number ≠ call.number)
    (hlock : turn.stored.isSome → call.stage.phase.holdsLock = false) :
    call.Stands kind guard (register.after turn.stored) (turns ++ [turn]) := by
  rcases hstands with ⟨hnone, hawaits⟩ | ⟨own, hmem, hown⟩
  · left
    constructor
    · intro other hmem
      rcases List.mem_append.mp hmem with hmem | hmem
      · exact hnone other hmem
      · rwa [List.mem_singleton.mp hmem]
    · cases hstored : turn.stored with
      | none => exact hawaits
      | some new => exact hawaits.after (hlock (by rw [hstored]; rfl)) (some new)
  · exact .inr ⟨own, List.mem_append_left [turn] hmem, hown⟩

end Running

namespace Traffic.Ordered

theorem numbers_ne (hordered : traffic.Ordered kind guard start turns)
    (hrunning : traffic.running = front ++ call :: back) :
    ∀ other ∈ front ++ back, call.number ≠ other.number := by
  intro other hmem heq
  have hnodup := hordered.numbers
  rw [hrunning] at hnodup
  have hperm : (front ++ call :: back).Perm (call :: (front ++ back)) := List.perm_middle
  rw [(hperm.map Running.number).nodup_iff, List.map_cons, List.nodup_cons] at hnodup
  exact hnodup.1 (heq ▸ List.mem_map_of_mem hmem)

theorem call_begins (hordered : traffic.Ordered kind guard start turns) (thread : ℕ)
    (action : Action) (programs : List (List Action)) :
    Ordered kind guard start
      { traffic with
        programs
        running := ⟨traffic.calls, action, action.opening kind⟩ :: traffic.running
        calls := traffic.calls + 1
        history := traffic.history ++ [.began traffic.calls thread action] } turns := by
  have hnew : ∀ turn ∈ turns, turn.number ≠ traffic.calls := by
    intro turn hmem heq
    obtain ⟨thread, hbegan⟩ := hordered.began turn hmem
    exact (hordered.earlier _ _ _ hbegan).ne heq
  constructor
  case slot =>
    exact (Slot.sound_cons_idle (Stage.idle_opening kind action)).mpr hordered.slot
  case chain => exact hordered.chain
  case once => exact hordered.once
  case numbers =>
    refine List.nodup_cons.mpr ⟨?_, hordered.numbers⟩
    intro hmem
    obtain ⟨call, hcall, heq⟩ := List.mem_map.mp hmem
    obtain ⟨thread, hbegan⟩ := hordered.running call hcall
    exact (hordered.earlier _ _ _ hbegan).ne heq
  case stands =>
    intro call hmem
    rcases List.mem_cons.mp hmem with rfl | hmem
    · exact .inl ⟨hnew, Stage.awaits_opening kind action _⟩
    · exact hordered.stands call hmem
  case running =>
    intro call hmem
    rcases List.mem_cons.mp hmem with rfl | hmem
    · exact ⟨thread, List.mem_append_right _ (List.mem_singleton.mpr rfl)⟩
    · obtain ⟨thread, hbegan⟩ := hordered.running call hmem
      exact ⟨thread, List.mem_append_left _ hbegan⟩
  case began =>
    intro turn hmem
    obtain ⟨thread, hbegan⟩ := hordered.began turn hmem
    exact ⟨thread, List.mem_append_left _ hbegan⟩
  case earlier =>
    intro number thread action hmem
    rcases List.mem_append.mp hmem with hmem | hmem
    · exact Nat.lt_succ_of_lt (hordered.earlier _ _ _ hmem)
    · obtain ⟨rfl, _, _⟩ := Mark.began.inj (List.mem_singleton.mp hmem)
      exact Nat.lt_succ_self traffic.calls
  case ended =>
    intro number outcome hmem
    obtain ⟨hgone, hnumber, hturn⟩ := hordered.ended number outcome (by simpa using hmem)
    refine ⟨?_, Nat.lt_succ_of_lt hnumber, hturn⟩
    rw [List.map_cons, List.mem_cons, not_or]
    exact ⟨hnumber.ne, hgone⟩
  case same =>
    intro number outcome other hfirst hsecond
    exact hordered.same number outcome other (by simpa using hfirst) (by simpa using hsecond)
  case present =>
    intro turn hmem
    rcases hordered.present turn hmem with hcall | ⟨outcome, hended⟩
    · exact .inl (List.mem_cons_of_mem _ hcall)
    · exact .inr ⟨outcome, List.mem_append_left _ hended⟩
  case stored =>
    intro number
    simpa using hordered.stored number
  case realTime =>
    intro first hfirst second hsecond outcome thread' action' hpair
    rcases pair_sublist_concat.mp hpair with hpair | ⟨_, heq⟩
    · exact hordered.realTime first hfirst second hsecond outcome thread' action' hpair
    · exact absurd (Mark.began.inj heq).1 (hnew second hsecond)

section Step

variable {slot : Slot} {stage : Stage} {effect : Option Effect} {facts : ObjectId → Facts}
  {shape : Text.Layout → ObjectId → Text.Shape}

theorem mem_replaced {other : Running}
    (hmem : other ∈ front ++ { call with stage } :: back) :
    other = { call with stage } ∨ other ∈ front ++ back := by
  rcases List.mem_append.mp hmem with hmem | hmem
  · exact .inr (List.mem_append_left back hmem)
  · rcases List.mem_cons.mp hmem with heq | hmem
    · exact .inl heq
    · exact .inr (List.mem_append_right front hmem)

theorem mem_running (hrunning : traffic.running = front ++ call :: back) {other : Running}
    (hmem : other ∈ front ++ back) : other ∈ traffic.running := by
  rw [hrunning]
  rcases List.mem_append.mp hmem with hmem | hmem
  · exact List.mem_append_left _ hmem
  · exact List.mem_append_right _ (List.mem_cons_of_mem call hmem)

theorem replaced_numbers (hrunning : traffic.running = front ++ call :: back) :
    (front ++ { call with stage } :: back).map Running.number =
      traffic.running.map Running.number := by
  simp [hrunning]

theorem replaced_running (hordered : traffic.Ordered kind guard start turns)
    (hrunning : traffic.running = front ++ call :: back) :
    ∀ other ∈ front ++ { call with stage } :: back,
      ∃ thread, .began other.number thread other.action ∈ traffic.history := by
  intro other hmem
  rcases mem_replaced hmem with rfl | hmem
  · exact hordered.running call (hrunning ▸ List.mem_append_right _ List.mem_cons_self)
  · exact hordered.running other (mem_running hrunning hmem)

theorem replaced_slot (hordered : traffic.Ordered kind guard start turns)
    (hrunning : traffic.running = front ++ call :: back)
    (hstep : call.stage.step kind guard call.action facts shape traffic.slot =
      some (slot, stage, effect)) :
    slot.Sound ((front ++ { call with stage } :: back).map (·.stage.phase)) := by
  have hsound := hordered.slot
  have hfront (entry : Running) : (front ++ entry :: back).Perm (entry :: (front ++ back)) :=
    List.perm_middle
  rw [hrunning] at hsound
  exact ((hsound.perm ((hfront call).map _)).stageStep hstep).perm
    ((hfront { call with stage }).symm.map _)

theorem others_unlocked (hordered : traffic.Ordered kind guard start turns)
    (hrunning : traffic.running = front ++ call :: back)
    (hholds : call.stage.phase.holdsLock = true) :
    ∀ other ∈ front ++ back, other.stage.phase.holdsLock = false := by
  have hsound := hordered.slot
  rw [hrunning] at hsound
  have halone := (hsound.perm ((List.perm_middle (a := call)).map _)).alone hholds
  intro other hmem
  exact halone _ (List.mem_map_of_mem (f := (·.stage.phase)) hmem)

/-- A step that leaves the register as it is and takes no turn. -/
theorem call_steps (hordered : traffic.Ordered kind guard start turns)
    (hrunning : traffic.running = front ++ call :: back)
    (hstep : call.stage.step kind guard call.action facts shape traffic.slot =
      some (slot, stage, effect))
    (hregister : slot.register = traffic.slot.register)
    (hstands : Running.Stands kind guard slot.register turns { call with stage }) :
    Ordered kind guard start
      { traffic with slot, running := front ++ { call with stage } :: back } turns where
  slot := hordered.replaced_slot hrunning hstep
  chain := hregister ▸ hordered.chain
  once := hordered.once
  numbers := replaced_numbers hrunning ▸ hordered.numbers
  stands := by
    intro other hmem
    rcases mem_replaced hmem with rfl | hmem
    · exact hstands
    · exact hregister ▸ hordered.stands other (mem_running hrunning hmem)
  running := hordered.replaced_running hrunning
  began := hordered.began
  earlier := hordered.earlier
  ended := replaced_numbers hrunning ▸ hordered.ended
  same := hordered.same
  present := replaced_numbers hrunning ▸ hordered.present
  stored := hordered.stored
  realTime := hordered.realTime

/-- Exactly the step that replaces the content leaves a mark of it. -/
theorem stores_eq {stored : Option (Option ObjectId)}
    (hstep : call.stage.step kind guard call.action facts shape traffic.slot =
      some (slot, stage, effect))
    (hregister : slot.register = traffic.slot.register.after stored) :
    call.stage.phase.stores = stored.isSome := by
  have hversion := Stage.version_step hstep
  have hafter : slot.version = (traffic.slot.register.after stored).version :=
    congrArg Register.version hregister
  rw [hversion] at hafter
  cases stored <;> cases hstores : call.stage.phase.stores <;>
    simp_all [Register.after, Slot.register]

/-- A step at which a call takes effect: it takes the next turn. -/
theorem call_takes_turn (hordered : traffic.Ordered kind guard start turns)
    (hrunning : traffic.running = front ++ call :: back)
    (hstep : call.stage.step kind guard call.action facts shape traffic.slot =
      some (slot, stage, effect))
    (hfirst : ∀ turn ∈ turns, turn.number ≠ call.number) {stored : Option (Option ObjectId)}
    (hsettled : stage.Settled kind guard call.action traffic.slot.register stored)
    (hregister : slot.register = traffic.slot.register.after stored) :
    Ordered kind guard start
      { traffic with
        slot
        running := front ++ { call with stage } :: back
        history := traffic.history ++
          if call.stage.phase.stores then [.stored call.number] else [] }
      (turns ++ [⟨call.number, call.action, traffic.slot.register, stored⟩]) := by
  have hcall : call ∈ traffic.running := hrunning ▸ List.mem_append_right _ List.mem_cons_self
  have hstores := stores_eq hstep hregister
  have hlocked : stored.isSome → ∀ other ∈ front ++ back,
      other.stage.phase.holdsLock = false := by
    intro hsome
    refine hordered.others_unlocked hrunning ?_
    rw [hsome] at hstores
    cases hphase : call.stage.phase <;> simp_all [Phase.stores, Phase.holdsLock]
  have hbegan : ∀ number thread action, Mark.began number thread action ∈ traffic.history ++
      (if call.stage.phase.stores then [.stored call.number] else []) ↔
        .began number thread action ∈ traffic.history := by
    intro number thread action
    split <;> simp
  have hended : ∀ number outcome, Mark.ended number outcome ∈ traffic.history ++
      (if call.stage.phase.stores then [.stored call.number] else []) ↔
        .ended number outcome ∈ traffic.history := by
    intro number outcome
    split <;> simp
  constructor
  case slot => exact hordered.replaced_slot hrunning hstep
  case chain =>
    rw [hregister]
    exact hordered.chain.concat rfl
  case once =>
    rw [List.map_append, List.nodup_append]
    refine ⟨hordered.once, List.nodup_singleton _, ?_⟩
    intro number hmem other hother
    obtain ⟨turn, hturn, rfl⟩ := List.mem_map.mp hmem
    rw [List.map_singleton, List.mem_singleton] at hother
    exact hother ▸ hfirst turn hturn
  case numbers => exact replaced_numbers hrunning ▸ hordered.numbers
  case stands =>
    intro other hmem
    rcases mem_replaced hmem with rfl | hmem
    · exact .inr ⟨_, List.mem_append_right turns List.mem_cons_self, rfl, rfl, hsettled⟩
    · rw [hregister]
      exact (hordered.stands other (mem_running hrunning hmem)).after
        ⟨call.number, call.action, traffic.slot.register, stored⟩
        (hordered.numbers_ne hrunning other hmem) fun hsome => hlocked hsome other hmem
  case running =>
    simpa only [hbegan] using hordered.replaced_running hrunning
  case began =>
    intro turn hmem
    simp only [hbegan]
    rcases List.mem_append.mp hmem with hmem | hmem
    · exact hordered.began turn hmem
    · rw [List.mem_singleton.mp hmem]
      exact hordered.running call hcall
  case earlier =>
    simpa only [hbegan] using hordered.earlier
  case ended =>
    intro number outcome hmem
    obtain ⟨hgone, hnumber, turn, hturn, hanswers⟩ :=
      hordered.ended number outcome ((hended number outcome).mp hmem)
    exact ⟨replaced_numbers hrunning ▸ hgone, hnumber, turn, List.mem_append_left _ hturn, hanswers⟩
  case same =>
    simpa only [hended] using hordered.same
  case present =>
    intro turn hmem
    simp only [hended]
    rcases List.mem_append.mp hmem with hmem | hmem
    · exact replaced_numbers hrunning ▸ hordered.present turn hmem
    · rw [List.mem_singleton.mp hmem]
      exact .inl (replaced_numbers hrunning ▸ List.mem_map_of_mem hcall)
  case stored =>
    intro number
    rw [hstores]
    cases stored with
    | none => simpa using hordered.stored number
    | some new =>
      rw [Option.isSome_some, if_pos rfl, List.mem_append, hordered.stored number]
      constructor
      · rintro (⟨turn, hmem, hturn⟩ | hmem)
        · exact ⟨turn, List.mem_append_left _ hmem, hturn⟩
        · obtain rfl := Mark.stored.inj (List.mem_singleton.mp hmem)
          exact ⟨_, List.mem_append_right turns List.mem_cons_self, rfl, rfl⟩
      · rintro ⟨turn, hmem, hturn⟩
        rcases List.mem_append.mp hmem with hmem | hmem
        · exact .inl ⟨turn, hmem, hturn⟩
        · rw [List.mem_singleton.mp hmem] at hturn
          exact .inr (hturn.1 ▸ List.mem_singleton.mpr rfl)
  case realTime =>
    intro first hmemFirst second hmemSecond outcome thread action hpair
    have hbefore : List.Sublist [.ended first.number outcome, .began second.number thread action]
        traffic.history := by
      split at hpair
      · rcases pair_sublist_concat.mp hpair with hpair | ⟨_, heq⟩
        · exact hpair
        · cases heq
      · simpa using hpair
    have hgone := (hordered.ended _ _ (hbefore.subset List.mem_cons_self)).1
    rcases List.mem_append.mp hmemFirst with hmemFirst | hmemFirst
    · rw [pair_sublist_concat]
      rcases List.mem_append.mp hmemSecond with hmemSecond | hmemSecond
      · exact .inl (hordered.realTime first hmemFirst second hmemSecond outcome thread action
          hbefore)
      · exact .inr ⟨hmemFirst, List.mem_singleton.mp hmemSecond⟩
    · rw [List.mem_singleton.mp hmemFirst] at hgone
      exact absurd (List.mem_map_of_mem hcall) hgone

/-- A call that has its outcome ends. -/
theorem call_ends {outcome : Outcome} (hordered : traffic.Ordered kind guard start turns)
    (hrunning : traffic.running = front ++ call :: back)
    (hfinished : call.stage = .finished outcome) :
    Ordered kind guard start
      { traffic with
        running := front ++ back
        history := traffic.history ++ [.ended call.number outcome] } turns := by
  have hcall : call ∈ traffic.running := hrunning ▸ List.mem_append_right _ List.mem_cons_self
  have hleft : ∀ number, number ∈ (front ++ back).map Running.number →
      number ∈ traffic.running.map Running.number := by
    intro number hmem
    obtain ⟨other, hother, rfl⟩ := List.mem_map.mp hmem
    exact List.mem_map_of_mem (mem_running hrunning hother)
  constructor
  case slot =>
    have hsound := hordered.slot
    rw [hrunning] at hsound
    have hperm := hsound.perm ((List.perm_middle (a := call)).map _)
    rw [List.map_cons] at hperm
    exact (Slot.sound_cons_idle (hfinished ▸ Stage.idle_done {})).mp hperm
  case chain => exact hordered.chain
  case once => exact hordered.once
  case numbers =>
    have hnumbers := hordered.numbers
    rw [hrunning] at hnumbers
    exact hnumbers.sublist (((List.sublist_cons_self call back).append_left front).map _)
  case stands =>
    intro other hmem
    exact hordered.stands other (mem_running hrunning hmem)
  case running =>
    intro other hmem
    obtain ⟨thread, hbegan⟩ := hordered.running other (mem_running hrunning hmem)
    exact ⟨thread, List.mem_append_left _ hbegan⟩
  case began =>
    intro turn hmem
    obtain ⟨thread, hbegan⟩ := hordered.began turn hmem
    exact ⟨thread, List.mem_append_left _ hbegan⟩
  case earlier =>
    intro number thread action hmem
    exact hordered.earlier number thread action (by simpa using hmem)
  case ended =>
    intro number other hmem
    rcases List.mem_append.mp hmem with hmem | hmem
    · obtain ⟨hgone, hnumber, hturn⟩ := hordered.ended number other hmem
      exact ⟨fun hagain => hgone (hleft number hagain), hnumber, hturn⟩
    · obtain ⟨rfl, rfl⟩ := Mark.ended.inj (List.mem_singleton.mp hmem)
      refine ⟨?_, ?_, ?_⟩
      · intro hagain
        obtain ⟨twin, htwin, heq⟩ := List.mem_map.mp hagain
        exact hordered.numbers_ne hrunning twin htwin heq.symm
      · obtain ⟨thread, hbegan⟩ := hordered.running call hcall
        exact hordered.earlier _ _ _ hbegan
      · rcases hordered.stands call hcall with ⟨_, hawaits⟩ | ⟨turn, hturn, heq, _, hsettled⟩
        · rw [hfinished] at hawaits
          exact hawaits.elim
        · rw [hfinished] at hsettled
          exact ⟨turn, hturn, heq, hsettled⟩
  case same =>
    have hnew : ∀ other, .ended call.number other ∉ traffic.history := by
      intro other hmem
      exact (hordered.ended _ _ hmem).1 (List.mem_map_of_mem hcall)
    intro number first second hfirst hsecond
    rcases List.mem_append.mp hfirst with hfirst | hfirst <;>
      rcases List.mem_append.mp hsecond with hsecond | hsecond
    · exact hordered.same number first second hfirst hsecond
    · obtain ⟨rfl, _⟩ := Mark.ended.inj (List.mem_singleton.mp hsecond)
      exact absurd hfirst (hnew first)
    · obtain ⟨rfl, _⟩ := Mark.ended.inj (List.mem_singleton.mp hfirst)
      exact absurd hsecond (hnew second)
    · rw [(Mark.ended.inj (List.mem_singleton.mp hfirst)).2,
        (Mark.ended.inj (List.mem_singleton.mp hsecond)).2]
  case present =>
    intro turn hmem
    rcases hordered.present turn hmem with hpresent | ⟨other, hended⟩
    · rw [hrunning, List.map_append, List.map_cons, List.mem_append, List.mem_cons] at hpresent
      rcases hpresent with hpresent | heq | hpresent
      · left
        rw [List.map_append]
        exact List.mem_append_left _ hpresent
      · right
        exact ⟨outcome, List.mem_append_right _ (heq ▸ List.mem_singleton.mpr rfl)⟩
      · left
        rw [List.map_append]
        exact List.mem_append_right _ hpresent
    · exact .inr ⟨other, List.mem_append_left _ hended⟩
  case stored =>
    intro number
    simpa using hordered.stored number
  case realTime =>
    intro first hfirst second hsecond other thread action hpair
    rcases pair_sublist_concat.mp hpair with hpair | ⟨_, heq⟩
    · exact hordered.realTime first hfirst second hsecond other thread action hpair
    · cases heq

end Step

/-- What a move leaves of the order: the call that moved may have taken the next turn. -/
theorem step (hordered : traffic.Ordered kind guard start turns) (move : Move) :
    ∃ after, (traffic.step kind guard move).Ordered kind guard start (turns ++ after) := by
  cases move with
  | begin thread =>
    refine ⟨[], ?_⟩
    rw [List.append_nil, Traffic.step]
    split
    · exact hordered.call_begins thread _ _
    · exact hordered
  | advance index facts shape =>
    rw [Traffic.step]
    split
    case h_2 => exact ⟨[], turns.append_nil.symm ▸ hordered⟩
    case h_1 call hcall =>
    split
    case h_2 => exact ⟨[], turns.append_nil.symm ▸ hordered⟩
    case h_1 slot stage effect hstep =>
    obtain ⟨front, back, hrunning, -, hset, -⟩ := exists_place hcall
    rw [hset]
    have hstays (hregister : slot.register = traffic.slot.register)
        (hstands : Running.Stands kind guard slot.register turns { call with stage }) :
        ∃ after, Ordered kind guard start
          { traffic with
            slot
            running := front ++ { call with stage } :: back
            history := traffic.history ++
              if call.stage.phase.stores then [.stored call.number] else [] }
          (turns ++ after) := by
      refine ⟨[], ?_⟩
      have hnone : slot.register = traffic.slot.register.after none := hregister
      rw [stores_eq hstep hnone, List.append_nil]
      simpa using hordered.call_steps hrunning hstep hregister hstands
    have hmem : call ∈ traffic.running := hrunning ▸ List.mem_append_right _ List.mem_cons_self
    rcases hordered.stands call hmem with ⟨hfirst, hawaits⟩ | ⟨turn, hturn, heq, haction, hsettled⟩
    · rcases hawaits.step hstep with ⟨hagain, hregister⟩ | ⟨stored, hsettled, hregister⟩
      · exact hstays hregister (.inl ⟨hfirst, hagain⟩)
      · exact ⟨_, hordered.call_takes_turn hrunning hstep hfirst hsettled hregister⟩
    · rw [haction] at hsettled
      obtain ⟨hagain, hregister⟩ := hsettled.step hstep
      exact hstays hregister (.inr ⟨turn, hturn, heq, haction, haction ▸ hagain⟩)
  | finish index =>
    refine ⟨[], ?_⟩
    rw [List.append_nil, Traffic.step]
    split
    · rename_i number action outcome hcall
      obtain ⟨front, back, hrunning, -, -, herase⟩ := exists_place hcall
      rw [herase]
      exact hordered.call_ends hrunning rfl
    · exact hordered

theorem opening (kind : CellKind) (guard : Guard) (start : Register)
    (programs : List (List Action)) :
    (Traffic.opening start programs).Ordered kind guard start [] := by
  constructor
  case slot => constructor <;> simp [Traffic.opening, Pins.count]
  case chain => rfl
  all_goals simp [Traffic.opening]

theorem run (hordered : traffic.Ordered kind guard start turns) (moves : List Move) :
    ∃ later, (traffic.run kind guard moves).Ordered kind guard start later := by
  induction moves generalizing traffic turns with
  | nil => exact ⟨turns, hordered⟩
  | cons move moves ih =>
    obtain ⟨after, hafter⟩ := hordered.step move
    exact ih hafter

end Traffic.Ordered

end SharedCell
