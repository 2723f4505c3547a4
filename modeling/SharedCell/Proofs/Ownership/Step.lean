import Mathlib
import SharedCell.Proofs.Agenda.Moves
import SharedCell.Proofs.Ownership.Start

/-!
# Steps of threads

Every step of a thread leaves the world sound with respect to what is at stake in the frames that
the step puts on the agenda.  A call that has its outcome hands its units to the chores that come
after it, and the destruction of an object puts nothing at stake but what the object gives up later.
-/

namespace SharedCell

open Operation

variable {β : Type} [Resident β] {world next : World β} {stakes : Stakes} {thread : ℕ}
  {unit : ObjectId} {call : Call} {frames : List Frame}

/-- A world after a step, and the frames that the step puts on the agenda. -/
def Stepped (stakes : Stakes) (next : World β) (frames : List Frame) : Prop :=
  next.Sound (stakesOf frames + stakes) ∧ ∀ frame ∈ frames, frame.ordinary = true

theorem stepped_nil (hsound : world.Sound stakes) : Stepped stakes world [] :=
  ⟨by simpa using hsound, by simp⟩

theorem Begun.stepped {frame : Frame} (hbegun : Begun stakes next frame) :
    Stepped stakes next [frame] :=
  ⟨by simpa using hbegun.1, by simpa using hbegun.2⟩

/-- Frames that are on top of others. -/
theorem Stepped.append {below : List Frame}
    (hstepped : Stepped (stakesOf below + stakes) next frames)
    (hordinary : ∀ frame ∈ below, frame.ordinary = true) :
    Stepped stakes next (frames ++ below) := by
  constructor
  · rw [stakesOf_append, add_assoc]
    exact hstepped.1
  · intro frame hframe
    rcases List.mem_append.mp hframe with habove | hbelow
    · exact hstepped.2 frame habove
    · exact hordinary frame hbelow

variable [Lawful β]

/-! ## Releasing -/

namespace World.Sound

/-- An object that is destroyed performs its script and gives up its references later. -/
theorem letGo (hsound : world.Sound (.unitsOn {unit} + stakes)) :
    Stepped stakes (world.letGo thread unit).1 (world.letGo thread unit).2 := by
  have hreleased : (world.release thread unit).Sound stakes := hsound.release
  unfold World.letGo
  split
  · rename_i object hlast hobject
    refine Begun.stepped ⟨?_, ?_⟩
    · split
      · exact (zero_add stakes).symm ▸ hreleased
      · exact (zero_add stakes).symm ▸ hreleased
    · split
      · exact hsound.scripts unit object hobject
      · rfl
  · exact stepped_nil hreleased

theorem letGo? {unit : Option ObjectId} (hsound : world.Sound (.unitsOn ↑unit.toList + stakes)) :
    Stepped stakes (world.letGo? thread unit).1 (world.letGo? thread unit).2 := by
  cases unit with
  | none =>
    have hnothing : world.Sound stakes := by simpa using hsound
    exact stepped_nil hnothing
  | some unit => exact letGo hsound

end World.Sound

theorem Chore.perform_stepped {chore : Chore} (hsound : world.Sound (chore.stakes + stakes))
    (hordinary : chore.ordinary = true) :
    Stepped stakes (chore.perform thread world).1 (chore.perform thread world).2 := by
  cases chore with
  | release unit => exact hsound.letGo
  | store name unit => exact hsound.store.letGo?
  | endUse holder => exact hsound.endUse.letGo?
  | leaveCell cell => exact stepped_nil (hsound.leaveCell thread)
  | join => cases hordinary
  | resume => cases hordinary

/-! ## Calls -/

theorem stakes_deliveries (target : Option String) (units : List ObjectId) :
    ((units.flatMap fun unit => delivery target (some unit)).map Chore.stakes).sum =
      .unitsOn ↑units := by
  induction units with
  | nil => rfl
  | cons unit units ih =>
    rw [List.flatMap_cons, List.map_append, List.sum_append, stakes_delivery, ih,
      ← Stakes.unitsOn_add]
    rfl

theorem ordinary_deliveries (target : Option String) (units : List ObjectId) :
    (units.flatMap fun unit => delivery target (some unit)).all Chore.ordinary = true := by
  rw [List.all_flatMap, List.all_eq_true]
  exact fun unit _ => ordinary_delivery target (some unit)

namespace Call

omit [Resident β] [Lawful β] in
/-- A call that has its outcome changes the table of cells at most. -/
theorem exists_settled (world : World β) (call : Call) (outcome : Outcome) :
    ∃ cells, (call.settle world outcome).1 = { world with cells } := by
  unfold settle
  split
  · dsimp only
    split
    · exact ⟨_, rfl⟩
    · split <;> exact ⟨_, rfl⟩
  · exact ⟨_, rfl⟩
  · exact ⟨_, rfl⟩

omit [Lawful β] in
/-- The units of an outcome go into a cell or are left to chores. -/
theorem settle_sound {outcome : Outcome} (hsound : world.Sound (.making call + stakes))
    (hfinished : call.stage = .finished outcome) :
    (call.settle world outcome).1.Sound (((call.settle world outcome).2.1.map Chore.stakes).sum +
      (.usesOf call.holders + (.visitTo call.cell + stakes))) ∧
    (call.settle world outcome).2.1.all Chore.ordinary = true := by
  have hkept := hsound.finishCall hfinished
  unfold settle
  split
  · rename_i content name haction _
    obtain ⟨cell, hcell⟩ := hsound.housed.present call.cell (by simp)
    have hcellSound := hsound.housed.sound call.cell cell hcell
    have hmem : call ∈ (Stakes.making call + stakes).callsOn call.cell :=
      Stakes.mem_callsOn.mpr ⟨by simp, rfl⟩
    have hguard : ((world.cell? call.cell).map (·.guard)).getD .standard = cell.guard := by
      rw [World.cell?, lookup_of_mem hsound.housed.names hcell]
      rfl
    have haccepts : cell.guard.Steadfast → ∀ obj, content = some obj →
        cell.guard.accepts (world.facts obj) = true := by
      intro hsteadfast obj hobj
      refine hcellSound.carried (hcellSound.copying call hmem haction) hsteadfast call hmem obj ?_
      rw [hfinished, hobj]
      exact .inl (List.mem_singleton_self obj)
    simp only [hguard]
    split
    · rename_i hnew
      refine ⟨?_, rfl⟩
      rw [List.map_nil, List.sum_nil, zero_add]
      exact hkept.addCell hnew fun _ => haccepts
    · rename_i displaced hdisplaced
      split
      · rename_i hidle
        refine ⟨?_, ordinary_delivery _ _⟩
        have herased := hkept.eraseCell hdisplaced hidle
        rw [add_left_comm] at herased
        rw [stakes_delivery]
        exact herased.addCell (lookup_filter_ne world.cells name) fun _ => haccepts
      · refine ⟨?_, ordinary_delivery _ _⟩
        rw [stakes_delivery]
        exact hkept
  · rename_i haction
    refine ⟨?_, rfl⟩
    rw [List.map_nil, List.sum_nil, zero_add]
    exact hsound.freezeCell haction hfinished
  · refine ⟨?_, ordinary_deliveries _ _⟩
    rw [stakes_deliveries]
    exact hkept

omit [Lawful β] in
theorem conclude_begun {outcome : Outcome} (hsound : world.Sound (.making call + stakes))
    (hfinished : call.stage = .finished outcome) :
    Begun stakes (call.conclude world outcome).1 (call.conclude world outcome).2 := by
  obtain ⟨hsettled, hordinary⟩ := settle_sound hsound hfinished
  constructor
  · have hstakes : (call.conclude world outcome).2.stakes =
        ((call.settle world outcome).2.1.map Chore.stakes).sum +
          (.usesOf call.holders + .visitTo call.cell) := by
      simp only [conclude, Frame.stakes, List.map_append, List.sum_append, stakes_endUses,
        List.map_cons, List.map_nil, List.sum_singleton, Chore.stakes, add_assoc]
    rw [hstakes, add_assoc, add_assoc]
    exact hsettled
  · simp only [conclude, Frame.ordinary, List.all_append, hordinary, ordinary_endUses]
    rfl

/-- What a call does to the world when it makes a step on its cell. -/
def affect (world : World β) (thread : ℕ) (guard : Guard) (effect : Option Effect) :
    World β × List Frame :=
  match effect with
  | some effect => apply world thread guard effect
  | none => (world, [])

omit [Lawful β] in
theorem step_cases (hstep : call.step world thread = some (next, frames)) :
    (∃ outcome, call.stage = .finished outcome ∧ next = (call.conclude world outcome).1 ∧
      frames = [(call.conclude world outcome).2]) ∨
    ∃ cell slot stage effect, world.cell? call.cell = some cell ∧
      call.stage.step cell.kind cell.guard call.action world.facts world.shape cell.slot =
        some (slot, stage, effect) ∧
      next = (affect (world.modifyCell call.cell ({ · with slot })) thread cell.guard effect).1 ∧
      frames = (affect (world.modifyCell call.cell ({ · with slot })) thread cell.guard effect).2 ++
        [.call { call with stage }] := by
  unfold step at hstep
  split at hstep
  · rename_i outcome hfinished
    simp only [Option.some.injEq, Prod.mk.injEq] at hstep
    obtain ⟨rfl, rfl⟩ := hstep
    exact .inl ⟨outcome, hfinished, rfl, rfl⟩
  · simp only [Option.bind_eq_bind, Option.bind_eq_some_iff] at hstep
    obtain ⟨cell, hcell, ⟨slot, stage, effect⟩, hstage, hresult⟩ := hstep
    refine .inr ⟨cell, slot, stage, effect, hcell, hstage, ?_⟩
    cases effect <;> simp_all [affect]

/-- What a call acquires was owned before, and what it releases was its own. -/
theorem affect_stepped (thread : ℕ) {cell : Cell} {slot : Slot} {stage : Stage}
    {effect : Option Effect} (hsound : world.Sound (.making call + stakes))
    (hcell : (call.cell, cell) ∈ world.cells)
    (hstep : call.stage.step cell.kind cell.guard call.action world.facts world.shape cell.slot =
      some (slot, stage, effect)) :
    Stepped (.making { call with stage } + stakes)
      (affect (world.modifyCell call.cell ({ · with slot })) thread cell.guard effect).1
      (affect (world.modifyCell call.cell ({ · with slot })) thread cell.guard effect).2 := by
  have hmoved (hgains : Effect.gains effect = 0) :
      (world.modifyCell call.cell ({ · with slot })).Sound
        (.unitsOn (Effect.losses effect) + (.making { call with stage } + stakes)) := by
    refine World.Sound.stepCall ?_ hcell hstep
    rw [hgains, Stakes.unitsOn_zero, zero_add]
    exact hsound
  have hquiet (hgains : Effect.gains effect = 0) (hlosses : Effect.losses effect = 0) :
      (world.modifyCell call.cell ({ · with slot })).Sound
        (.making { call with stage } + stakes) := by
    have hbefore := hmoved hgains
    rwa [hlosses, Stakes.unitsOn_zero, zero_add] at hbefore
  cases effect with
  | none => exact stepped_nil (hquiet rfl rfl)
  | some effect =>
    cases effect with
    | acquire obj =>
      have hcall : call ∈ (Stakes.making call + stakes).calls := by simp
      have hacquired : (world.acquire thread obj).Sound
          (.unitsOn (Effect.gains (some (.acquire obj))) + (.making call + stakes)) :=
        hsound.acquire thread (hsound.owned_of_acquired hcall hcell hstep)
      have hfacts : (world.acquire thread obj).facts = world.facts :=
        World.facts_modifyObject fun object => Lawful.facts_acquire object.body
      rw [← hfacts] at hstep
      have hstepped := hacquired.stepCall hcell hstep
      rw [show Effect.losses (some (.acquire obj)) = 0 from rfl, Stakes.unitsOn_zero,
        zero_add] at hstepped
      exact stepped_nil hstepped
    | release obj => exact (hmoved rfl).letGo
    | ask obj => exact stepped_nil (hquiet rfl rfl).ask
    | reject obj => exact stepped_nil ((hquiet rfl rfl).remark trivial)
    | retry | wait => exact stepped_nil ((hquiet rfl rfl).remark trivial)

theorem step_stepped (hsound : world.Sound (.making call + stakes))
    (hstep : call.step world thread = some (next, frames)) : Stepped stakes next frames := by
  rcases step_cases hstep with
    ⟨outcome, hfinished, rfl, rfl⟩ | ⟨cell, slot, stage, effect, hcell, hstage, rfl, rfl⟩
  · exact (conclude_begun hsound hfinished).stepped
  · have haffected := affect_stepped thread hsound (mem_of_lookup hcell) hstage
    refine Stepped.append ?_ (by simp [Frame.ordinary])
    simpa [Frame.stakes] using haffected

end Call

/-! ## Threads -/

namespace Frame

omit [Lawful β] in
/-- Nothing is at stake in a reply. -/
theorem receive_begun {frame : Frame} {reply : Reply} (hsound : world.Sound (frame.stakes + stakes))
    (hordinary : frame.ordinary = true) :
    Begun stakes (receive world reply frame).1 (receive world reply frame).2 := by
  cases frame with
  | script owner ops =>
    exact ⟨⟨hsound.books, hsound.held, hsound.raws, hsound.housed, hsound.scripts⟩, hordinary⟩
  | race contest => cases hordinary
  | stress tally => cases hordinary
  | call active => exact ⟨hsound, hordinary⟩
  | mutate holder obj payload stateSeen => exact ⟨hsound, hordinary⟩
  | tidy chores reply => exact ⟨hsound, hordinary⟩
  | surrender owner => exact ⟨hsound, hordinary⟩
  | rounds left body ops replies => exact ⟨hsound, hordinary⟩

/-- An object that was destroyed gives up its next reference. -/
theorem surrender_stepped {owner ref : ObjectId} {after : World β} (hsound : world.Sound stakes)
    (htake : world.takeRef owner = some (after, ref)) :
    Stepped stakes (after.letGo thread ref).1 (after.letGo thread ref).2 := by
  obtain ⟨object, refs, hobject, hrefs, rfl⟩ := World.takeRef_eq_some htake
  exact (hsound.surrender hobject hrefs).letGo

omit [Lawful β] in
/-- The use of an object comes to its end, whether its payload was changed or not. -/
theorem endUse_begun {holder : ℕ} {obj : ObjectId} (flag : Bool)
    (hsound : next.Sound (.changing holder obj + stakes)) :
    Begun stakes next (.tidy [.endUse holder] (.flag flag)) := by
  refine ⟨?_, rfl⟩
  rw [Frame.stakes, List.map_singleton, List.sum_singleton]
  exact hsound.unchanging

/-- One step of a thread, beside whatever is at stake for the other threads. -/
theorem step_stepped {agenda later : List Frame} (hsound : world.Sound (stakesOf agenda + stakes))
    (hordinary : ∀ frame ∈ agenda, frame.ordinary = true)
    (hstep : step thread world agenda = some (next, later)) : Stepped stakes next later := by
  cases agenda with
  | nil => cases hstep
  | cons top below =>
    rw [stakesOf_cons, add_assoc] at hsound
    obtain ⟨htop, hbelow⟩ := List.forall_mem_cons.mp hordinary
    cases move_of_step hstep with
    | call _ hcall => exact (Call.step_stepped hsound hcall).append hbelow
    | refuse => exact (endUse_begun false hsound).stepped.append hbelow
    | look holder payload _ hobject =>
      have hbegun : Begun (stakesOf below + stakes) world (.mutate holder _ payload true) :=
        ⟨hsound, rfl⟩
      exact hbegun.stepped.append hbelow
    | write holder payload _ hobject hsole =>
      exact (endUse_begun true (hsound.setPayload hobject hsole)).stepped.append hbelow
    | reply told frame below =>
      obtain ⟨hframe, hbelow⟩ := List.forall_mem_cons.mp hbelow
      rw [Frame.stakes, List.map_nil, List.sum_nil, zero_add, stakesOf_cons, add_assoc] at hsound
      exact (receive_begun hsound hframe).stepped.append hbelow
    | chore chore chores told =>
      rw [Frame.stakes, List.map_cons, List.sum_cons, add_assoc] at hsound
      rw [Frame.ordinary, List.all_cons, Bool.and_eq_true] at htop
      refine Stepped.append ?_ (List.forall_mem_cons.mpr ⟨htop.2, hbelow⟩)
      rw [stakesOf_cons, Frame.stakes, add_assoc]
      exact Chore.perform_stepped hsound htop.1
    | told owner =>
      rw [Frame.stakes, zero_add] at hsound
      refine ⟨?_, List.forall_mem_cons.mpr ⟨rfl, hbelow⟩⟩
      rwa [stakesOf_cons, Frame.stakes, zero_add]
    | tell owner op ops =>
      rw [Frame.stakes, zero_add] at hsound
      rw [Frame.ordinary, ordinaryAll_cons] at htop
      refine (Begun.stepped ?_).append (List.forall_mem_cons.mpr ⟨htop.2, hbelow⟩)
      rw [stakesOf_cons, Frame.stakes, zero_add]
      exact hsound.start htop.1 thread
    | surrendered =>
      rw [Frame.stakes, zero_add] at hsound
      exact ⟨hsound, hbelow⟩
    | surrender _ htake =>
      rw [Frame.stakes, zero_add] at hsound
      refine Stepped.append ?_ (List.forall_mem_cons.mpr ⟨rfl, hbelow⟩)
      rw [stakesOf_cons, Frame.stakes, zero_add]
      exact surrender_stepped hsound htake
    | ended body replies =>
      rw [Frame.stakes, zero_add] at hsound
      refine ⟨?_, List.forall_mem_cons.mpr ⟨rfl, hbelow⟩⟩
      rwa [stakesOf_cons, Frame.stakes, List.map_nil, List.sum_nil, zero_add]
    | again remaining body replies =>
      rw [Frame.stakes, zero_add] at hsound
      rw [Frame.ordinary, Bool.and_eq_true] at htop
      refine ⟨?_, List.forall_mem_cons.mpr ⟨?_, hbelow⟩⟩
      · rwa [stakesOf_cons, Frame.stakes, zero_add]
      · rw [Frame.ordinary, htop.1, Bool.and_self]
    | perform remaining body op ops replies =>
      rw [Frame.stakes, zero_add] at hsound
      rw [Frame.ordinary, Bool.and_eq_true, ordinaryAll_cons] at htop
      refine (Begun.stepped ?_).append (List.forall_mem_cons.mpr ⟨?_, hbelow⟩)
      · rw [stakesOf_cons, Frame.stakes, zero_add]
        exact hsound.start htop.2.1 thread
      · rw [Frame.ordinary, htop.1, htop.2.2, Bool.and_self]
    | stress => cases htop

end Frame

end SharedCell
