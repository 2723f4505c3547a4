import Mathlib
import SharedCell.Proofs.Agenda.Clearing
import SharedCell.Proofs.Agenda.Weights
import SharedCell.Proofs.Solo.IdleSlots
import SharedCell.Proofs.Twins.Performances

/-!
# Operations come to an end

Whatever is destroyed on its way, and whatever the scripts of the destroyed objects do, an ordinary
operation that the only thread performs comes to its end.  Each step leaves less to do, a call on a
slot takes a few steps since nobody else uses the slot, and in the end there is a reply.  So the
operation is performed within the number of steps that is set aside for it.
-/

namespace SharedCell

open Operation

variable {β : Type}

/-! ## Steps -/

namespace Stage

open Text

/-- Before and after its call on the slot, a call goes on to its outcome. -/
theorem cost_step {kind : CellKind} {guard : Guard} {action : Action} {facts : ObjectId → Facts}
    {shape : Layout → ObjectId → Shape} {slot after : Slot} {stage later : Stage}
    {effect : Option Effect} (hcalling : ∀ phase, stage ≠ .calling phase)
    (hstep : stage.step kind guard action facts shape slot = some (after, later, effect)) :
    later.cost < stage.cost := by
  cases move_of_step hstep with
  | call | receive => exact absurd rfl (hcalling _)
  | _ => simp [cost]

theorem cost_received (kind : CellKind) (result : Yield) (action : Action) :
    (received kind result action).cost ≤ 4 := by
  have hgiveBack (outcome : Outcome) : (giveBack result.unit outcome).cost ≤ 4 := by
    unfold giveBack
    split <;> simp [cost]
  cases action <;> simp only [received] <;> (try split) <;>
    first | exact hgiveBack _ | simp [cost]

end Stage

namespace World

variable {world next : World β}

theorem Marked.congr (hmarked : world.Marked) (hobjects : next.objects = world.objects)
    (hlog : next.log = world.log) : next.Marked := by
  intro obj object hobject hgone
  rw [object?, hobjects] at hobject
  exact hlog ▸ hmarked obj object hobject hgone

theorem cost_takeRef {owner ref : ObjectId} (htake : world.takeRef owner = some (next, ref)) :
    next.cost + 1 = world.cost := by
  obtain ⟨object, refs, hobject, hrefs, rfl⟩ := takeRef_eq_some htake
  have hsum := sum_modifyObject hobject ({ · with refs }) Object.cost
  have htaken : object.cost = ({ object with refs } : Object β).cost + 1 := by
    simp only [Object.cost, hrefs, List.length_cons]
    omega
  rw [htaken, ← add_assoc, add_right_comm] at hsum
  exact Nat.add_right_cancel hsum

theorem Marked.takeRef {owner ref : ObjectId} (hmarked : world.Marked)
    (htake : world.takeRef owner = some (next, ref)) : next.Marked := by
  obtain ⟨object, refs, -, -, rfl⟩ := takeRef_eq_some htake
  intro obj later hlater hgone
  rw [object?, Books.getElem?_modifyObject] at hlater
  split at hlater
  · obtain ⟨earlier, hearlier, rfl⟩ := Option.map_eq_some_iff.mp hlater
    exact hmarked obj earlier hearlier hgone
  · exact hmarked obj later hlater hgone

end World

variable [Resident β] {world next : World β} {thread : ℕ}

theorem Chore.cost_perform (chore : Chore) (hmarked : world.Marked)
    (horderly : Orderly (chore.perform thread world).1.log) :
    (chore.perform thread world).1.cost + Frame.costAll (chore.perform thread world).2 ≤
      world.cost := by
  cases chore with
  | release unit => exact World.cost_letGo hmarked horderly
  | store name unit =>
    have htables : (world.store name unit).1.objects = world.objects ∧
        (world.store name unit).1.log = world.log := by
      obtain ⟨holders, nextHolder, hstored⟩ := world.exists_stored name unit
      rw [hstored]
      exact ⟨rfl, rfl⟩
    rw [← World.cost_of_objects htables.1]
    exact World.cost_letGo? (hmarked.congr htables.1 htables.2) horderly
  | endUse holder =>
    have htables : (world.endUse holder).1.objects = world.objects ∧
        (world.endUse holder).1.log = world.log := by
      obtain ⟨holders, hended⟩ := world.exists_endUsed holder
      rw [hended]
      exact ⟨rfl, rfl⟩
    rw [← World.cost_of_objects htables.1]
    exact World.cost_letGo? (hmarked.congr htables.1 htables.2) horderly
  | leaveCell | join | resume => exact le_rfl

namespace Call

theorem cost_affect (hmarked : world.Marked) (guard : Guard) {effect : Option Effect}
    (horderly : Orderly (affect world thread guard effect).1.log) :
    (affect world thread guard effect).1.cost + Frame.costAll (affect world thread guard effect).2 ≤
      world.cost := by
  have htrace (event : Event) : (world.trace thread event).cost = world.cost := by
    obtain ⟨log, htraced⟩ := world.exists_traced thread event
    rw [htraced]
    rfl
  cases effect with
  | none => exact le_rfl
  | some effect =>
    cases effect with
    | acquire obj => exact (world.cost_acquire thread obj).le
    | release obj => exact World.cost_letGo hmarked horderly
    | ask obj =>
      refine Eq.le (?_ : (world.ask thread guard obj).cost = world.cost)
      obtain ⟨log, hasked⟩ := world.exists_asked thread guard obj
      rw [hasked]
      rfl
    | reject | retry | wait => exact (htrace _).le

omit [Resident β] in
/-- A call that has its outcome has one unit at most to give away. -/
theorem settle_cost (world : World β) (call : Call) (outcome : Outcome) :
    (call.settle world outcome).1.cost = world.cost ∧
      (call.settle world outcome).2.1.length ≤ 1 := by
  have hunits : (outcome.units.flatMap fun unit => delivery call.target (some unit)).length ≤ 1 := by
    cases outcome with
    | unit owned | snapshot owned | swapped _ owned =>
      cases owned with
      | none => exact Nat.zero_le 1
      | some obj => simpa [Outcome.units] using Attempt.length_delivery call.target (some obj)
    | _ => exact Nat.zero_le 1
  unfold settle
  split
  · simp only
    split
    · exact ⟨rfl, Nat.zero_le 1⟩
    · split
      · exact ⟨rfl, Attempt.length_delivery _ _⟩
      · exact ⟨rfl, Attempt.length_delivery _ _⟩
  · exact ⟨rfl, Nat.zero_le 1⟩
  · exact ⟨rfl, hunits⟩

omit [Resident β] in
theorem cost_conclude (world : World β) (call : Call) (outcome : Outcome) :
    (call.conclude world outcome).1.cost = world.cost ∧
      (call.conclude world outcome).2.cost ≤ call.holders.length + 3 := by
  obtain ⟨hcost, hchores⟩ := call.settle_cost world outcome
  unfold conclude
  generalize call.settle world outcome = settled at hcost hchores
  obtain ⟨next, chores, reply⟩ := settled
  refine ⟨hcost, ?_⟩
  simp only [Frame.cost_tidy, List.length_append, List.length_map, List.length_singleton]
    at hchores ⊢
  omega

end Call

namespace Frame

omit [Resident β] in
theorem cost_receive (world : World β) (told : Reply) (frame : Frame) :
    (receive world told frame).1.cost = world.cost ∧
      (receive world told frame).2.cost = frame.cost := by
  cases frame <;> exact ⟨rfl, rfl⟩

/-- A step that is none of a call on a slot leaves less to do. -/
theorem cost_move {agenda later : List Frame} (hmove : Move thread world agenda next later)
    (hordinary : ∀ frame ∈ agenda, frame.ordinary = true) (hmarked : world.Marked)
    (horderly : Orderly next.log) (hcalling : ∀ active below phase,
      agenda = .call active :: below → active.stage ≠ .calling phase) :
    next.cost + costAll later < world.cost + costAll agenda := by
  cases hmove with
  | @call active after frames below hactive =>
    rcases Call.step_cases hactive with
      ⟨outcome, hstage, rfl, rfl⟩ | ⟨cell, slot, stage, effect, -, hstage, rfl, rfl⟩
    · obtain ⟨hcost, hframe⟩ := active.cost_conclude world outcome
      have hcall : (Frame.call active).cost = active.holders.length + 4 := by
        rw [cost_call, hstage, Stage.cost]
        omega
      rw [hcost, List.singleton_append, costAll_cons, costAll_cons, hcall]
      omega
    · have hless := Stage.cost_step (hcalling active below · rfl) hstage
      have hkept : (world.modifyCell active.cell ({ · with slot })).Marked := hmarked
      have haffect := Call.cost_affect hkept cell.guard horderly
      have hcells : (world.modifyCell active.cell ({ · with slot })).cost = world.cost := rfl
      simp only [costAll_append, costAll_cons, costAll_nil, cost_call]
      omega
  | refuse holder obj payload stateSeen below =>
    cases stateSeen <;> simp [cost]
  | look holder payload below => simp [cost]
  | write holder payload below hobject hsole =>
    rw [World.cost_modifyObject fun _ => (by rfl)]
    simp [cost]
  | reply told frame below =>
    obtain ⟨hcost, hframe⟩ := cost_receive world told frame
    rw [costAll_cons, costAll_cons, costAll_cons, hcost, hframe, cost_tidy]
    omega
  | chore chore chores told below =>
    have hchore := chore.cost_perform hmarked horderly
    simp only [costAll_append, costAll_cons, cost_tidy, List.length_cons]
    omega
  | told owner below => simp [weightAll]
  | tell owner op ops below =>
    have hop : op.ordinary = true :=
      ((ordinaryAll_cons op ops).mp (hordinary _ List.mem_cons_self)).1
    obtain ⟨-, hstart⟩ := cost_start hop thread world
    simp only [costAll_cons, cost_script, weightAll]
    omega
  | surrendered below htake => simp
  | surrender below htake =>
    have hcost := World.cost_takeRef htake
    have hreleased := World.cost_letGo (hmarked.takeRef htake) horderly
    simp only [costAll_append, costAll_cons, cost_surrender]
    omega
  | ended body replies below => simp [weightAll]
  | again remaining body replies below =>
    simp only [costAll_cons, cost_rounds, weightAll, Nat.succ_mul]
    omega
  | perform remaining body op ops replies below =>
    have hops : (ordinaryAll body && ordinaryAll (op :: ops)) = true :=
      hordinary _ List.mem_cons_self
    have hop : op.ordinary = true :=
      ((ordinaryAll_cons op ops).mp (Bool.and_eq_true_iff.mp hops).2).1
    obtain ⟨-, hstart⟩ := cost_start hop thread world
    simp only [costAll_cons, cost_rounds, weightAll]
    omega
  | stress tally below => cases hordinary _ List.mem_cons_self

/-! ## The bottom of an agenda -/

/-- The frame at the bottom leads to a reply. -/
def Answerable (agenda : List Frame) : Prop :=
  ∃ frame, agenda.getLast? = some frame ∧ frame.Answers

theorem Answerable.replace {top frame : Frame} {below : List Frame} (opened : List Frame)
    (hanswerable : Answerable (top :: below)) (hframe : top.Answers → frame.Answers) :
    Answerable (opened ++ frame :: below) := by
  obtain ⟨bottom, hbottom, hanswers⟩ := hanswerable
  rw [Answerable, List.getLast?_append_of_ne_nil _ (List.cons_ne_nil _ _)]
  cases below with
  | nil =>
    obtain rfl := Option.some.inj hbottom
    exact ⟨frame, rfl, hframe hanswers⟩
  | cons other below =>
    rw [List.getLast?_cons_cons] at hbottom ⊢
    exact ⟨bottom, hbottom, hanswers⟩

/-- What is done on top of a frame that does not lead to a reply is done on top of others. -/
theorem Answerable.below {top : Frame} {below : List Frame}
    (hanswerable : Answerable (top :: below)) (htop : ¬ top.Answers ∨ below ≠ []) :
    Answerable below := by
  obtain ⟨bottom, hbottom, hanswers⟩ := hanswerable
  cases below with
  | nil =>
    obtain rfl := Option.some.inj hbottom
    exact absurd hanswers (htop.resolve_right fun hne => hne rfl)
  | cons other below =>
    rw [List.getLast?_cons_cons] at hbottom
    exact ⟨bottom, hbottom, hanswers⟩

theorem Answerable.move {agenda later : List Frame} (hanswerable : Answerable agenda)
    (hmove : Move thread world agenda next later)
    (hordinary : ∀ frame ∈ agenda, frame.ordinary = true) : Answerable later := by
  cases hmove with
  | @call active after frames below hactive =>
    rcases Call.step_cases hactive with
      ⟨outcome, -, -, rfl⟩ | ⟨cell, slot, stage, effect, -, -, -, rfl⟩
    · exact hanswerable.replace [] fun _ => trivial
    · rw [List.append_assoc]
      exact hanswerable.replace _ fun _ => trivial
  | refuse | look | write | told | ended | again =>
    exact hanswerable.replace [] id
  | reply told frame below =>
    have hbelow := hanswerable.below (.inr (List.cons_ne_nil _ _))
    refine hbelow.replace [] fun hanswers => ?_
    cases frame <;> exact hanswers
  | chore chore chores told below => exact hanswerable.replace _ id
  | tell owner op ops below => exact hanswerable.replace [_] id
  | surrendered below htake => exact hanswerable.below (.inl id)
  | surrender below htake => exact hanswerable.replace _ id
  | perform remaining body op ops replies below => exact hanswerable.replace [_] id
  | stress tally below => cases hordinary _ List.mem_cons_self

end Frame

/-! ## Threads -/

theorem World.cost_leap (world : World β) (name : String) (register : Register) (errand : Errand) :
    (world.leap name register errand).cost = world.cost := by
  have hacquired : ∀ units : List ObjectId, (world.acquireAll 0 units).cost = world.cost := by
    intro units
    induction units using List.reverseRecOn with
    | nil => rfl
    | append_singleton units unit ih =>
      rw [World.acquireAll, List.foldl_append, List.foldl_cons, List.foldl_nil,
        World.cost_acquire]
      exact ih
  exact hacquired _

namespace Solo

variable {solo later : Solo β}

/-- What a thread has to do, and what the destruction of all objects would take. -/
def cost (solo : Solo β) : ℕ :=
  solo.1.cost + Frame.costAll solo.2

/-- Every step of a calm thread takes some of the steps that it has to make. -/
theorem Calm.leap_cost [Lawful β] (hcalm : solo.Calm) (hleap : solo.leap = some later) :
    ∃ count inside, Path Solo.next inside count solo later ∧ later.cost + count ≤ solo.cost := by
  rcases leap_cases hleap with
    ⟨call, below, errand, cell, hagenda, hstage, hcell, hlater⟩ | ⟨hother, hnext⟩
  · obtain ⟨-, count, hcount, hpath⟩ := hcalm.locking hagenda hstage hcell hlater
    refine ⟨count, _, hpath, ?_⟩
    have hbefore : (Frame.call call).cost = call.holders.length + 17 := by
      rw [Frame.cost_call, hstage, Stage.cost]
      omega
    have hafter : (Frame.call (call.leap cell errand)).cost ≤ call.holders.length + 7 := by
      have hreceived :=
        Stage.cost_received cell.kind (errand.settle cell.slot.register).1 call.action
      calc (Frame.call (call.leap cell errand)).cost
          = (Stage.received cell.kind (errand.settle cell.slot.register).1 call.action).cost +
              call.holders.length + 3 := rfl
        _ ≤ call.holders.length + 7 := by omega
    rw [cost, cost, hagenda, hlater, World.cost_leap, Frame.costAll_cons, Frame.costAll_cons,
      hbefore]
    omega
  · refine ⟨1, fun _ => True, .last hnext, ?_⟩
    have hafter := hcalm.next hother hnext
    refine Frame.cost_move (Frame.move_of_step hnext) hcalm.ordinary hcalm.sound.world.marked
      hafter.sound.world.books.chronicle.orderly ?_
    rintro active below phase hagenda hcalling
    have hpoised := hcalm.poised active (hagenda ▸ List.mem_cons_self)
    cases hpoised with
    | asking cell new hcell hasking => cases hasking.symm.trans hcalling
    | locking cell hcell hlocking => exact hother active below _ hagenda hlocking
    | past hpast => exact (hcalling ▸ hpast : (Stage.calling _).Past).elim

theorem answerable_leap (hanswerable : Frame.Answerable solo.2)
    (hordinary : ∀ frame ∈ solo.2, frame.ordinary = true) (hleap : solo.leap = some later) :
    Frame.Answerable later.2 := by
  rcases leap_cases hleap with ⟨call, below, errand, cell, hagenda, -, -, rfl⟩ | ⟨-, hnext⟩
  · rw [hagenda] at hanswerable
    exact hanswerable.replace [] fun _ => trivial
  · exact hanswerable.move (Frame.move_of_step hnext) hordinary

/-- A calm thread comes to its end, and it makes no more steps than it has to. -/
theorem Calm.ends [Lawful β] (hcalm : solo.Calm) (hanswerable : Frame.Answerable solo.2) :
    ∃ count next reply, count ≤ solo.cost ∧
      Solo.advance Solo.next count solo = (next, [.tidy [] reply]) := by
  induction hcost : solo.cost using Nat.strong_induction_on generalizing solo with
  | h bound ih =>
    subst hcost
    cases hleap : solo.leap with
    | none =>
      have hreply : (Frame.reply? solo.2).isSome = true := by
        rw [← Option.not_isNone, Bool.not_eq_true', Bool.eq_false_iff]
        intro hnone
        have hunfinished : Frame.Unfinished solo.2 := by
          refine ⟨?_, hnone⟩
          rintro hempty
          obtain ⟨frame, hframe, -⟩ := hanswerable
          rw [hempty] at hframe
          cases hframe
        have hgoes := hcalm.leap_isSome hunfinished
        rw [hleap] at hgoes
        cases hgoes
      obtain ⟨reply, hagenda⟩ := Frame.eq_of_reply hreply
      exact ⟨0, solo.1, reply, Nat.zero_le _, Prod.ext rfl hagenda⟩
    | some later =>
      obtain ⟨count, inside, hpath, hless⟩ := hcalm.leap_cost hleap
      have hpos := hpath.pos
      obtain ⟨more, next, reply, hmore, hends⟩ := ih later.cost (by omega)
        (hcalm.leap hleap).1 (answerable_leap hanswerable hcalm.ordinary hleap) rfl
      refine ⟨count + more, next, reply, by omega, ?_⟩
      rw [advance_add, hpath.advance_eq, hends]

end Solo

/-! ## Operations -/

namespace Operation

variable [Lawful β] {op : Operation}

theorem start_calm (hsound : world.Sound 0) (hordinary : op.ordinary = true) :
    Solo.Calm ((op.start 0 world).1, [(op.start 0 world).2]) where
  sound := start_sound hsound hordinary
  poised := by
    intro call hcall
    have hopening := opening_start hordinary 0 world
    rw [← List.mem_singleton.mp hcall] at hopening
    obtain ⟨cell, hcell, hstage⟩ := hopening
    exact Call.poised_opening hcell hstage
  settled := fun call hcall => absurd hcall List.not_mem_nil

/-- An operation is performed within the number of steps that is set aside for it, in whatever state
the world is, and with everything that it destroys. -/
theorem performs_perform (hsound : world.Sound 0) (hordinary : op.ordinary = true) :
    op.Performs world (world.perform op).1 (world.perform op).2 := by
  obtain ⟨⟨hanswers, hbrief⟩, -⟩ := cost_start hordinary 0 world
  have hcalm := start_calm hsound hordinary
  obtain ⟨count, next, reply, hcount, hends⟩ := hcalm.ends ⟨_, rfl, hanswers⟩
  -- What is set aside covers the steps that the thread needs, and then there are none.
  let fuel := op.weight + (op.start 0 world).1.weight
  have hfuel : count ≤ fuel := by
    have hweight := (op.start 0 world).1.cost_le_weight
    have hcost : Solo.cost ((op.start 0 world).1, [(op.start 0 world).2]) =
        (op.start 0 world).1.cost + (op.start 0 world).2.cost := by
      simp [Solo.cost]
    omega
  have hrun : Solo.advance Solo.next fuel ((op.start 0 world).1, [(op.start 0 world).2]) =
      (next, [.tidy [] reply]) := by
    obtain ⟨more, hmore⟩ := Nat.exists_eq_add_of_le hfuel
    rw [hmore, Solo.advance_add, hends, Solo.advance_none (Solo.next_ended next reply)]
  let session : Session β := { world := (op.start 0 world).1, main := [(op.start 0 world).2] }
  have hsession : (session.run fuel).crew = Solo.crew (next, [.tidy [] reply]) := by
    rw [session.run_crew hcalm.sound rfl, ← hrun]
    exact Solo.crew_run ((op.start 0 world).1, [(op.start 0 world).2]) fuel
  have hworld : (session.run fuel).world = next := congrArg Crew.world hsession
  have hmain : (session.run fuel).main = [.tidy [] reply] :=
    List.singleton_inj.mp (congrArg Crew.agendas hsession)
  have hperform : world.perform op = (next, reply) := by
    calc world.perform op
        = ((session.run fuel).world,
            (Frame.reply? (session.run fuel).main).getD (.fault .stuck)) := rfl
      _ = (next, reply) := by rw [hworld, hmain]; rfl
  rw [performs_iff, hperform]
  exact ⟨count, hends⟩

/-- Operations that are begun one after the other all come to an end. -/
theorem exists_performsAll {ops : List Operation} (hsound : world.Sound 0)
    (hordinary : ordinaryAll ops = true) :
    ∃ next replies, PerformsAll world ops next replies := by
  induction ops generalizing world with
  | nil => exact ⟨world, [], .nil world⟩
  | cons op ops ih =>
    obtain ⟨hop, hops⟩ := (ordinaryAll_cons op ops).mp hordinary
    have hperforms := performs_perform hsound hop
    obtain ⟨next, replies, hrest⟩ := ih (hperforms.sound hsound hop) hops
    exact ⟨next, _, .cons hperforms hrest⟩

end Operation

end SharedCell
