import Mathlib
import SharedCell.Proofs.Crew.Units
import SharedCell.Proofs.Ownership.Sole

/-!
# Exclusive access

Access to a payload is granted by a single counter, which is looked at while other threads go on.
The count says that no other unit is owned anywhere.  That no reader is on its way to the object
either follows from the pins: what a reader has copied is still in the slot or in the hand of the
call that displaced it, and both would own a unit.
-/

namespace SharedCell

variable {β : Type} [Resident β]

namespace Crew

variable {crew next : Crew β} {thread other holder : ℕ} {obj : ObjectId} {payload : Payload}
  {stateSeen : Bool} {below : List Frame}

/-- Only the handle owns a unit on the object, and no call is on its way to the object, be it to
read it or to store it. -/
structure Solitary (crew : Crew β) (holder : ℕ) (obj : ObjectId) : Prop where
  owners : crew.owners obj = 1
  handle : ∃ own ∈ crew.world.holders, own.id = holder ∧ own.unit = obj ∧
    ∀ other ∈ crew.world.holders, other.unit = obj → other = own
  raws : ∀ entry ∈ crew.world.raws, entry.2 ≠ obj
  cells : ∀ entry ∈ crew.world.cells, entry.2.slot.content ≠ some obj
  objects : ∀ object ∈ crew.world.objects.toList, obj ∉ object.refs
  inHand : obj ∉ crew.stakes.inHand
  calls : ∀ call, .call call ∈ crew.agendas.flatten →
    call.stage.phase.copied? ≠ some obj ∧ call.action.new? ≠ some obj

/-- What access to payloads depends on. -/
structure Exclusive (crew : Crew β) : Prop where
  /-- Whoever is granted access has the object to himself. -/
  granted : ∀ thread next holder obj payload stateSeen below,
    crew.agendas[thread]? = some (.mutate holder obj payload stateSeen :: below) →
    crew.step thread = some next →
    next.agendas[thread]? = some (.tidy [.endUse holder] (.flag true) :: below) →
      crew.Solitary holder obj
  /-- Whoever asks for access to a mutable object that he has to himself is granted it after two
  steps of his own, whatever the others do meanwhile. -/
  grants : ∀ thread holder obj payload below object,
    crew.agendas[thread]? = some (.mutate holder obj payload false :: below) →
    crew.world.object? obj = some object → Resident.isMutable object.body = true →
    crew.owners obj = 1 → ∀ schedule : List ℕ, schedule.count thread = 2 →
      (crew.run schedule).agendas[thread]? =
        some (.tidy [.endUse holder] (.flag true) :: below)

/-! ## Granted access -/

theorem Sound.exists_changing (hsound : crew.Sound)
    (hagenda : crew.agendas[thread]? = some (.mutate holder obj payload stateSeen :: below)) :
    ∃ others, crew.stakes = .changing holder obj + others ∧
      crew.world.Sound (.changing holder obj + others) := by
  obtain ⟨before, after, hplace, -⟩ := exists_place hagenda
  refine ⟨stakesOf below + (stakesOf before.flatten + stakesOf after.flatten), ?_⟩
  have hstakes : crew.stakes = .changing holder obj +
      (stakesOf below + (stakesOf before.flatten + stakesOf after.flatten)) := by
    rw [stakes, hplace, List.flatten_append, List.flatten_cons, stakesOf_append, stakesOf_append,
      add_left_comm, stakesOf_cons, add_assoc]
    rfl
  exact ⟨hstakes, hstakes ▸ hsound.world⟩

/-- An object that counts a single unit while its payload is about to be changed. -/
theorem Sound.solitary (hsound : crew.Sound)
    (hagenda : crew.agendas[thread]? = some (.mutate holder obj payload stateSeen :: below))
    {object : Object β} (hobject : crew.world.object? obj = some object)
    (hcount : Resident.count object.body = 1) : crew.Solitary holder obj := by
  obtain ⟨others, hstakes, hworld⟩ := hsound.exists_changing hagenda
  obtain ⟨own, hown, hid, hunit, -, -, hsole⟩ := hworld.sole_handle hobject hcount
  obtain ⟨hcontent, hcarried⟩ := hworld.sole_unit hobject hcount
  have howners : crew.owners obj = 1 := by
    rw [owners_eq, hstakes]
    exact (hworld.single hobject hcount).2
  have hone : 1 ≤ (crew.world.holders.map Holder.unit).count obj :=
    List.count_pos_iff.mpr (hunit ▸ List.mem_map_of_mem hown)
  have hsum := howners
  rw [Crew.owners] at hsum
  constructor
  case owners => exact howners
  case handle => exact ⟨own, hown, hid, hunit, hsole⟩
  case raws =>
    have hnone : (crew.world.raws.map Prod.snd).count obj = 0 := by omega
    intro entry hentry heq
    exact List.count_eq_zero.mp hnone (heq ▸ List.mem_map_of_mem hentry)
  case cells => exact fun entry hentry => hcontent entry.1 entry.2 hentry
  case objects =>
    have hnone : (crew.world.objects.toList.map (·.refs.count obj)).sum = 0 := by omega
    intro object hobject
    rw [← List.count_eq_zero]
    exact List.sum_eq_zero_iff.mp hnone _ (List.mem_map_of_mem hobject)
  case inHand =>
    have hnone : crew.stakes.inHand.count obj = 0 := by omega
    exact Multiset.count_eq_zero.mp hnone
  case calls =>
    intro call hmem
    have hcall : call ∈ crew.stakes.calls := Stakes.mem_calls_of_mem hmem
    have hothers : ∀ other ∈ crew.stakes.calls, other ∈ others.calls := by
      intro other hother
      simpa [hstakes] using hother
    refine ⟨fun hcopied => ?_, hworld.not_stored hobject hcount (hothers call hcall)⟩
    obtain ⟨cell, hcell⟩ :=
      hsound.world.housed.present call.cell (crew.stakes.mem_visited_of_call hcall)
    have hcellSound := hsound.world.housed.sound call.cell cell hcell
    rcases hcellSound.copied_kept (Stakes.mem_callsOn.mpr ⟨hcall, rfl⟩) hcopied with
      hheld | ⟨other, hother, hunits⟩
    · exact hcontent call.cell cell hcell hheld
    · exact hcarried other (hothers other (Stakes.mem_callsOn.mp hother).1)
        (hcellSound.fits other hother) (.inl hunits)

theorem Sound.granted (hsound : crew.Sound)
    (hagenda : crew.agendas[thread]? = some (.mutate holder obj payload stateSeen :: below))
    (hstep : crew.step thread = some next)
    (hnext : next.agendas[thread]? = some (.tidy [.endUse holder] (.flag true) :: below)) :
    crew.Solitary holder obj := by
  obtain ⟨agenda, world, later, hbefore, hframe, rfl⟩ := step_eq_some hstep
  rw [hagenda] at hbefore
  obtain rfl := Option.some.inj hbefore
  have hlater : later = .tidy [.endUse holder] (.flag true) :: below := by
    rw [List.getElem?_set_self (List.getElem?_eq_some_iff.mp hagenda).1] at hnext
    exact Option.some.inj hnext
  rcases Frame.mutate_cases hframe with
    ⟨-, rfl⟩ | ⟨object, -, -, -, -, rfl⟩ | ⟨object, hobject, hcount, -, -, -⟩
  · cases hlater
  · cases hlater
  · exact hsound.solitary hagenda hobject hcount

/-! ## Requests that succeed -/

/-- A thread is about to change the payload of a mutable object with a single unit. -/
structure Poised (crew : Crew β) (thread holder : ℕ) (obj : ObjectId) (payload : Payload)
    (stateSeen : Bool) (below : List Frame) : Prop where
  agenda : crew.agendas[thread]? = some (.mutate holder obj payload stateSeen :: below)
  object : ∃ object, crew.world.object? obj = some object ∧
    Resident.isMutable object.body = true ∧ Resident.count object.body = 1

theorem step_agenda_of_ne (hstep : crew.step other = some next) (hne : other ≠ thread) :
    next.agendas[thread]? = crew.agendas[thread]? := by
  obtain ⟨agenda, world, later, -, -, rfl⟩ := step_eq_some hstep
  exact List.getElem?_set_ne hne

omit [Resident β] in
/-- What is at stake for two threads, and for the others. -/
theorem exists_apart {agenda frames : List Frame} (hagenda : crew.agendas[thread]? = some agenda)
    (hframes : crew.agendas[other]? = some frames) (hne : other ≠ thread) :
    ∃ others, crew.stakes = stakesOf frames + (stakesOf agenda + others) := by
  obtain ⟨before, after, hplace, -, -, herase⟩ := exists_place hagenda
  have hmem : frames ∈ before ++ after := by
    rw [← herase]
    exact List.mem_eraseIdx_iff_getElem?.mpr ⟨other, hne, hframes⟩
  obtain ⟨front, back, hsplit⟩ := List.append_of_mem hmem
  have hflatten : (before ++ after).flatten = front.flatten ++ (frames ++ back.flatten) := by
    rw [hsplit, List.flatten_append, List.flatten_cons]
  have hstakes := congrArg stakesOf hflatten
  rw [List.flatten_append, stakesOf_append, stakesOf_append, stakesOf_append] at hstakes
  refine ⟨stakesOf front.flatten + stakesOf back.flatten, ?_⟩
  rw [stakes, hplace, List.flatten_append, List.flatten_cons, stakesOf_append, stakesOf_append,
    add_left_comm, hstakes]
  abel

variable [Lawful β]

/-- Nothing that another thread does stands in the way. -/
theorem Sound.poised_other (hsound : crew.Sound)
    (hpoised : crew.Poised thread holder obj payload stateSeen below) (hne : other ≠ thread)
    (hstep : crew.step other = some next) :
    next.Poised thread holder obj payload stateSeen below := by
  refine ⟨(step_agenda_of_ne hstep hne).trans hpoised.agenda, ?_⟩
  obtain ⟨object, hobject, hmutable, hcount⟩ := hpoised.object
  obtain ⟨agenda, world, later, hagenda, hframe, rfl⟩ := step_eq_some hstep
  obtain ⟨others, hstakes⟩ := exists_apart hpoised.agenda hagenda hne
  have hworld := hsound.world
  rw [hstakes, stakesOf_cons, add_assoc] at hworld
  have hordinary := hsound.ordinary_agenda (List.mem_of_getElem? hagenda)
  obtain ⟨after, hafter, hbody⟩ := hworld.spared hordinary hobject hcount hframe
  exact ⟨after, hafter, hbody ▸ hmutable, hbody ▸ hcount⟩

omit [Lawful β] in
/-- The first look is at the state of the object, the second one at its count. -/
theorem Poised.step_own (hpoised : crew.Poised thread holder obj payload stateSeen below) :
    ∃ next, crew.step thread = some next ∧
      if stateSeen then
        next.agendas[thread]? = some (.tidy [.endUse holder] (.flag true) :: below)
      else next.Poised thread holder obj payload true below := by
  obtain ⟨hagenda, object, hobject, hmutable, hcount⟩ := hpoised
  have hlt := (List.getElem?_eq_some_iff.mp hagenda).1
  cases stateSeen with
  | false =>
    have hframe : Frame.step thread crew.world (.mutate holder obj payload false :: below) =
        some (crew.world, .mutate holder obj payload true :: below) := by
      simp [Frame.step, hobject, hmutable]
    refine ⟨_, by rw [Crew.step, hagenda, Option.bind_eq_bind, Option.bind_some, hframe]; rfl, ?_⟩
    exact ⟨List.getElem?_set_self hlt, object, hobject, hmutable, hcount⟩
  | true =>
    have hframe : Frame.step thread crew.world (.mutate holder obj payload true :: below) =
        some (crew.world.modifyObject obj fun object =>
          { object with body := Resident.setPayload object.body payload },
          .tidy [.endUse holder] (.flag true) :: below) := by
      simp [Frame.step, hobject, hcount]
    refine ⟨_, by rw [Crew.step, hagenda, Option.bind_eq_bind, Option.bind_some, hframe]; rfl, ?_⟩
    exact List.getElem?_set_self hlt

omit [Lawful β] in
/-- The agenda of a thread that makes no step. -/
theorem run_agenda {schedule : List ℕ} (hidle : thread ∉ schedule) :
    (crew.run schedule).agendas[thread]? = crew.agendas[thread]? := by
  induction schedule generalizing crew with
  | nil => rfl
  | cons other schedule ih =>
    rw [List.mem_cons, not_or] at hidle
    rw [Crew.run, ih hidle.2]
    cases hstep : crew.step other with
    | none => rfl
    | some next => exact step_agenda_of_ne hstep (Ne.symm hidle.1)

theorem Sound.poised_run (hsound : crew.Sound)
    (hpoised : crew.Poised thread holder obj payload stateSeen below) {schedule : List ℕ}
    (hsteps : schedule.count thread = if stateSeen then 1 else 2) :
    (crew.run schedule).agendas[thread]? =
      some (.tidy [.endUse holder] (.flag true) :: below) := by
  induction schedule generalizing crew stateSeen with
  | nil => cases stateSeen <;> cases hsteps
  | cons other schedule ih =>
    rw [Crew.run]
    by_cases hne : other = thread
    · subst hne
      rw [List.count_cons_self] at hsteps
      obtain ⟨next, hstep, hnext⟩ := hpoised.step_own
      rw [hstep, Option.getD_some]
      cases stateSeen with
      | false => exact ih (hsound.step hstep) hnext (Nat.succ.inj hsteps)
      | true =>
        have hidle : other ∉ schedule := List.count_eq_zero.mp (Nat.succ.inj hsteps)
        exact (run_agenda hidle).trans hnext
    · rw [List.count_cons_of_ne hne] at hsteps
      cases hstep : crew.step other with
      | none => exact ih hsound hpoised hsteps
      | some next => exact ih (hsound.step hstep) (hsound.poised_other hpoised hne hstep) hsteps

/-- A mutable object is counted. -/
theorem Sound.poised (hsound : crew.Sound) {object : Object β}
    (hagenda : crew.agendas[thread]? = some (.mutate holder obj payload stateSeen :: below))
    (hobject : crew.world.object? obj = some object)
    (hmutable : Resident.isMutable object.body = true) (howners : crew.owners obj = 1) :
    crew.Poised thread holder obj payload stateSeen below := by
  refine ⟨hagenda, object, hobject, hmutable, ?_⟩
  rw [Lawful.isMutable_eq, Bool.and_eq_true, Bool.not_eq_true', Bool.not_eq_true'] at hmutable
  have hcounted := (hsound.balanced.counted obj object hobject hmutable.2).1
  rw [hcounted, howners]
  rfl

/-- However threads that perform ordinary operations interleave, access to a payload is granted if
nothing else has a unit on the object, and only then. -/
theorem run_exclusive {programs : List (List Operation)}
    (hordinary : ∀ ops ∈ programs, Operation.ordinaryAll ops = true) (schedule : List ℕ) :
    ((start programs : Crew β).run schedule).Exclusive := by
  have hsound := (start_sound hordinary : (start programs : Crew β).Sound).run schedule
  constructor
  case granted =>
    exact fun _ _ _ _ _ _ _ hagenda hstep hnext => hsound.granted hagenda hstep hnext
  case grants =>
    intro thread holder obj payload below object hagenda hobject hmutable howners further hsteps
    exact hsound.poised_run (hsound.poised hagenda hobject hmutable howners) hsteps

/-- The first thread takes an object out of a cell while the second one reads it, and changes its
payload once the reader has given it up. -/
def reclaiming : List (List Operation) :=
  [[.alloc (some "a") (some (.int 1)) (some .mutable) [] [],
      .newCell (some "c") (.given .acceptAll) (.named "a") (some (some .atomic)) (some .value) none,
      .drop (some "a"),
      .onCell (some "c") .take .empty .empty (some "a"),
      .mutate (some (.int 2)) (some "a")],
    [.onCell (some "c") .get .empty .empty none]]

/-- The reader has copied the content but has no unit when the first thread takes the content out,
and goes on when the first thread waits for it. -/
def overtaken : List ℕ :=
  List.replicate 8 0 ++ List.replicate 5 1 ++ List.replicate 16 0 ++ List.replicate 24 1 ++
    List.replicate 16 0

theorem run_exclusive_reclaiming : (∀ ops ∈ reclaiming, Operation.ordinaryAll ops = true) ∧
    (((start reclaiming : Crew Staged).run overtaken).world.facts 0).payload.isEven = true ∧
      ((start reclaiming : Crew Staged).run overtaken).Exclusive :=
  ⟨by decide, by decide +kernel, run_exclusive (by decide) overtaken⟩

/-- Two threads look at one freezable cell. -/
def looking : List (List Operation) :=
  [[.alloc (some "a") (some (.int 1)) (some .mutable) [] [],
      .newCell (some "c") .absent (.named "a") (some (some .freezable)) (some .value) none,
      .onCell (some "c") .get .empty .empty (some "x")],
    [.onCell (some "c") .get .empty .empty (some "y")]]

/-- Both are about to acquire a unit on the content at the same time. -/
example : (((start looking : Crew Staged).run
    (List.replicate 9 0 ++ List.replicate 5 1)).world.cell? "c").map (·.slot.pins) =
      some { even := 2, odd := 0 } := by
  decide +kernel

end Crew

end SharedCell
