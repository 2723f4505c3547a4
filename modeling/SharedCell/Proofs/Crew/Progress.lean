import Mathlib
import SharedCell.Proofs.Crew.InterruptedThreads
import SharedCell.Proofs.Crew.Units

/-!
# Progress

A thread waits in two places only: for a lock that is taken, and for pins on what it displaced.
Whoever holds a lock or has a pin is on top of its agenda and can go on, so nobody waits for a
thread that waits itself.  Destructions cannot close a circle either, since a call is not
interrupted while it holds a lock or has a pin.
-/

namespace SharedCell

variable {β : Type} [Resident β]

namespace Phase

variable {slot : Slot} {phase : Phase}

/-- The phases between taking the lock and giving it up, and between pinning and unpinning. -/
def Engaged (phase : Phase) : Prop :=
  phase.holdsLock = true ∨ phase.pinned?.isSome = true

/-- A call makes no step while the lock is taken, and at its end. -/
theorem step_eq_none (hstep : phase.step slot = none) :
    (∃ errand, phase = .locking errand ∧ slot.locked = true) ∨ ∃ result, phase = .done result := by
  cases phase with
  | locking errand =>
    simp only [step] at hstep
    split at hstep
    · rename_i hlocked
      exact .inl ⟨errand, rfl, hlocked⟩
    · cases hstep
  | draining old version rounds =>
    simp only [step] at hstep
    split_ifs at hstep
  | departing old version => cases old <;> cases hstep
  | comparing unit observed attempt current =>
    simp only [step] at hstep
    split at hstep <;> cases hstep
  | done result => exact .inr ⟨result, rfl⟩
  | _ => cases hstep

theorem not_engaged_of_idle (hidle : phase.Idle) : ¬ phase.Engaged := by
  obtain ⟨hlock, hpinned, -⟩ := hidle
  simp [Engaged, hlock, hpinned]

end Phase

namespace Stage

/-- A call on a cell makes no step where its call on the slot waits, and at its end. -/
theorem step_eq_none {kind : CellKind} {guard : Guard} {action : Action}
    {facts : ObjectId → Facts} {shape : Text.Layout → ObjectId → Text.Shape} {slot : Slot}
    {stage : Stage} (hstep : stage.step kind guard action facts shape slot = none) :
    (∃ phase, stage = .calling phase ∧ phase.step slot = none ∧
      ∀ result, phase ≠ .done result) ∨ ∃ outcome, stage = .finished outcome := by
  cases stage with
  | asking new errand =>
    simp only [step] at hstep
    split at hstep <;> cases hstep
  | calling phase =>
    have hdone : ∀ result, phase ≠ .done result := by
      rintro result rfl
      cases hstep
    rw [step_calling_eq hdone, Option.map_eq_none_iff] at hstep
    exact .inl ⟨phase, rfl, hstep, hdone⟩
  | writing unit version => cases action <;> cases hstep
  | vetting unit =>
    simp only [step] at hstep
    split at hstep <;> cases hstep
  | finished outcome => exact .inr ⟨outcome, rfl⟩
  | _ => cases hstep

end Stage

namespace Call

variable {world : World β} {thread : ℕ} {call : Call} {cell : Cell}

/-- A call makes no step while the lock of its slot is taken. -/
theorem step_eq_none (hcell : world.cell? call.cell = some cell)
    (hstep : call.step world thread = none) :
    ∃ errand, call.stage = .calling (.locking errand) ∧ cell.slot.locked = true := by
  have hunfinished : ∀ outcome, call.stage ≠ .finished outcome := by
    intro outcome hstage
    simp [step, hstage] at hstep
  have hnone : call.stage.step cell.kind cell.guard call.action world.facts world.shape
      cell.slot = none := by
    cases hnext : call.stage.step cell.kind cell.guard call.action world.facts world.shape
      cell.slot with
    | none => rfl
    | some later =>
      cases hstage : call.stage with
      | finished outcome => exact absurd hstage (hunfinished outcome)
      | _ =>
        rw [hstage] at hnext
        simp [step, hstage, hcell, hnext] at hstep
  rcases Stage.step_eq_none hnone with ⟨phase, hstage, hphase, hdone⟩ | ⟨outcome, hstage⟩
  · rcases Phase.step_eq_none hphase with ⟨errand, rfl, hlocked⟩ | ⟨result, rfl⟩
    · exact ⟨errand, hstage, hlocked⟩
    · exact absurd rfl (hdone result)
  · exact absurd hstage (hunfinished outcome)

omit [Resident β] in
/-- A call looks at pins in vain while the version that it has displaced is pinned. -/
theorem polls_eq_true (hcell : world.cell? call.cell = some cell)
    (hpolls : call.polls world = true) :
    ∃ old version rounds, call.stage = .calling (.draining old version rounds) ∧
      cell.slot.pins.count version ≠ 0 := by
  rw [polls, hcell, Option.any_some] at hpolls
  cases hstage : call.stage with
  | calling phase =>
    rw [hstage] at hpolls
    obtain ⟨old, version, rounds, rfl, hpinned⟩ := Phase.polls_eq_true hpolls
    exact ⟨old, version, rounds, rfl, hpinned⟩
  | _ =>
    rw [hstage] at hpolls
    cases hpolls

/-- A look at pins in vain changes nothing but how often the call has looked. -/
theorem step_of_polls (hnames : (world.cells.map Prod.fst).Nodup)
    (hcell : world.cell? call.cell = some cell) (hpolls : call.polls world = true) (thread : ℕ) :
    ∃ old version rounds, call.stage = .calling (.draining old version rounds) ∧
      call.step world thread = some (world,
        [.call
          { call with stage := .calling (.draining old version (Phase.nextRound rounds)) }]) := by
  obtain ⟨old, version, rounds, hstage, hpinned⟩ := polls_eq_true hcell hpolls
  have hself : world.modifyCell call.cell ({ · with slot := cell.slot }) = world :=
    World.modifyCell_self hnames hcell rfl
  refine ⟨old, version, rounds, hstage, ?_⟩
  simp [step, hstage, hcell, Stage.step, Phase.step, hpinned, hself]

/-- The two places where a call waits. -/
theorem waits_cases (hcell : world.cell? call.cell = some cell)
    (hwaits : call.polls world = true ∨ call.step world thread = none) :
    (∃ errand, call.stage = .calling (.locking errand) ∧ cell.slot.locked = true) ∨
      ∃ old version rounds, call.stage = .calling (.draining old version rounds) ∧
        cell.slot.pins.count version ≠ 0 :=
  hwaits.symm.imp (step_eq_none hcell) (polls_eq_true hcell)

/-- A call whose call on the slot is engaged does not wait. -/
theorem not_waits (hcell : world.cell? call.cell = some cell)
    (hengaged : call.stage.phase.Engaged) :
    ¬ (call.polls world = true ∨ call.step world thread = none) := by
  intro hwaits
  rcases waits_cases hcell hwaits with ⟨errand, hstage, -⟩ | ⟨old, version, rounds, hstage, -⟩
  · simp [hstage, Stage.phase, Phase.Engaged, Phase.holdsLock, Phase.pinned?] at hengaged
  · simp [hstage, Stage.phase, Phase.Engaged, Phase.holdsLock, Phase.pinned?] at hengaged

end Call

namespace Frame

/-- An operation is under way on the agenda. -/
def Unfinished (agenda : List Frame) : Prop :=
  agenda ≠ [] ∧ (reply? agenda).isNone = true

/-- An agenda that is not finished makes no step only if a call on top waits. -/
theorem step_eq_none {world : World β} {thread : ℕ} {agenda : List Frame}
    (hunfinished : Unfinished agenda) (hordinary : ∀ frame ∈ agenda, frame.ordinary = true)
    (hstep : step thread world agenda = none) :
    ∃ call below, agenda = .call call :: below ∧ call.step world thread = none := by
  obtain ⟨hnonempty, hreply⟩ := hunfinished
  cases agenda with
  | nil => exact absurd rfl hnonempty
  | cons top below =>
    cases top with
    | call active => exact ⟨active, below, rfl, Option.map_eq_none_iff.mp hstep⟩
    | mutate holder obj payload stateSeen =>
      simp only [step] at hstep
      split_ifs at hstep
    | tidy chores reply =>
      cases chores with
      | nil =>
        cases below with
        | nil => cases hreply
        | cons frame below => cases hstep
      | cons chore chores => cases hstep
    | script owner ops => cases ops <;> cases hstep
    | surrender owner =>
      simp only [step] at hstep
      split at hstep <;> cases hstep
    | rounds left body ops replies => cases ops <;> cases left <;> cases hstep
    | race contest => cases hordinary (.race contest) List.mem_cons_self
    | stress tally => cases hordinary (.stress tally) List.mem_cons_self

/-- So it is where it looks at pins in vain. -/
theorem waits_cases {world : World β} {thread : ℕ} {agenda : List Frame}
    (hunfinished : Unfinished agenda) (hordinary : ∀ frame ∈ agenda, frame.ordinary = true)
    (hwaits : polls world agenda = true ∨ step thread world agenda = none) :
    ∃ call below, agenda = .call call :: below ∧
      (call.polls world = true ∨ call.step world thread = none) := by
  rcases hwaits with hpolls | hnone
  · unfold polls at hpolls
    split at hpolls
    · exact ⟨_, _, rfl, .inl hpolls⟩
    · cases hpolls
  · obtain ⟨call, below, rfl, hcall⟩ := step_eq_none hunfinished hordinary hnone
    exact ⟨call, below, rfl, .inr hcall⟩

end Frame

namespace Crew

variable {crew next : Crew β} {thread : ℕ} {agenda : List Frame}

/-- Whether the next step of a thread is to find that it still has to wait for pins. -/
def polls (crew : Crew β) (thread : ℕ) : Bool :=
  crew.agendas[thread]?.any (Frame.polls crew.world)

/-- The next step of a thread, unless it is to find that it still has to wait. -/
def proceed (crew : Crew β) (thread : ℕ) : Option (Crew β) :=
  if crew.polls thread then none else crew.step thread

theorem step_isSome (hagenda : crew.agendas[thread]? = some agenda) :
    (crew.step thread).isSome = (Frame.step thread crew.world agenda).isSome := by
  cases hframe : Frame.step thread crew.world agenda <;> simp [step, hagenda, hframe]

/-- A thread that waits makes no step, or one that only finds that it has to wait. -/
theorem proceed_eq_none (hagenda : crew.agendas[thread]? = some agenda) :
    crew.proceed thread = none ↔
      Frame.polls crew.world agenda = true ∨ Frame.step thread crew.world agenda = none := by
  have hnone : crew.step thread = none ↔ Frame.step thread crew.world agenda = none := by
    rw [← Option.not_isSome_iff_eq_none, step_isSome hagenda, Option.not_isSome_iff_eq_none]
  rw [proceed, polls, hagenda, Option.any_some, ite_eq_left_iff, Bool.not_eq_true, hnone,
    ← Bool.not_eq_true, ← or_iff_not_imp_left]

/-- The first thread is at an access for which the second one must give up the lock or drop a pin
first. -/
def WaitsFor (crew : Crew β) (thread other : ℕ) : Prop :=
  ∃ waiting below agenda call, crew.agendas[thread]? = some (.call waiting :: below) ∧
    crew.agendas[other]? = some agenda ∧ .call call ∈ agenda ∧ call.cell = waiting.cell ∧
    ((∃ errand, waiting.stage = .calling (.locking errand) ∧
        call.stage.phase.holdsLock = true) ∨
      ∃ old version rounds, waiting.stage = .calling (.draining old version rounds) ∧
        call.stage.phase.pinsLike version = true)

/-- What keeps threads from waiting for each other for ever.  An attempt to take a lock that is taken
is no step, and a look at pins that are still there does not count as one here. -/
structure Progressive (crew : Crew β) : Prop where
  /-- As long as some thread has something to do, some thread does it. -/
  moves : ∀ agenda ∈ crew.agendas, Frame.Unfinished agenda →
    ∃ thread, (crew.proceed thread).isSome = true
  /-- A thread that has something to do and does not get ahead waits for another one. -/
  blocked : ∀ thread agenda, crew.agendas[thread]? = some agenda → Frame.Unfinished agenda →
    crew.proceed thread = none → ∃ other ≠ thread, crew.WaitsFor thread other
  /-- A thread that holds a lock or has a pin can go on and waits for nobody. -/
  engaged : ∀ thread agenda call, crew.agendas[thread]? = some agenda → .call call ∈ agenda →
    call.stage.phase.Engaged →
      (crew.proceed thread).isSome = true ∧ ∀ other, ¬ crew.WaitsFor thread other
  /-- Whoever is waited for does not wait, so that nobody waits in a circle. -/
  unchained : ∀ thread other, crew.WaitsFor thread other →
    (crew.proceed other).isSome = true ∧ ∀ third, ¬ crew.WaitsFor other third
  /-- Who looks at pins in vain leaves everything as it is. -/
  vain : ∀ thread next, crew.polls thread = true → crew.step thread = some next →
    next.world = crew.world

theorem Sound.cell_of_call (hsound : crew.Sound) {call : Call}
    (hagenda : crew.agendas[thread]? = some agenda) (hcall : .call call ∈ agenda) :
    ∃ cell, crew.world.cell? call.cell = some cell ∧
      cell.Sound (crew.stakes.visited.count call.cell) (crew.stakes.callsOn call.cell)
        crew.world.facts := by
  have hmem : call ∈ crew.stakes.calls :=
    Stakes.mem_calls_of_mem (List.mem_flatten.mpr ⟨agenda, List.mem_of_getElem? hagenda, hcall⟩)
  obtain ⟨cell, hcell⟩ :=
    hsound.world.housed.present call.cell (crew.stakes.mem_visited_of_call hmem)
  exact ⟨cell, lookup_of_mem hsound.world.housed.names hcell,
    hsound.world.housed.sound call.cell cell hcell⟩

omit [Resident β] in
/-- Calls on a cell are on the agendas of threads. -/
theorem exists_thread {name : String} {call : Call} (hcall : call ∈ crew.stakes.callsOn name) :
    call.cell = name ∧ ∃ (thread : ℕ) (agenda : List Frame),
      crew.agendas[thread]? = some agenda ∧ .call call ∈ agenda := by
  obtain ⟨hmem, hname⟩ := Stakes.mem_callsOn.mp hcall
  obtain ⟨agenda, hagenda, hframe⟩ := List.mem_flatten.mp (Stakes.mem_of_mem_calls hmem)
  obtain ⟨thread, hthread⟩ := List.mem_iff_getElem?.mp hagenda
  exact ⟨hname, thread, agenda, hthread, hframe⟩

omit [Resident β] in
/-- Whoever holds a lock or has a pin is on top of its agenda. -/
theorem AtRest.top_of_engaged {call : Call} (hrest : crew.AtRest)
    (hagenda : crew.agendas[thread]? = some agenda) (hcall : .call call ∈ agenda)
    (hengaged : call.stage.phase.Engaged) : ∃ below, agenda = .call call :: below := by
  cases agenda with
  | nil => cases hcall
  | cons top below =>
    rcases List.mem_cons.mp hcall with rfl | hbelow
    · exact ⟨below, rfl⟩
    · have hidle := hrest _ (List.mem_of_getElem? hagenda) _ hbelow
      exact absurd hengaged (Phase.not_engaged_of_idle hidle)

theorem Sound.engaged (hsound : crew.Sound) (hrest : crew.AtRest) {call : Call}
    (hagenda : crew.agendas[thread]? = some agenda) (hcall : .call call ∈ agenda)
    (hengaged : call.stage.phase.Engaged) :
    (crew.proceed thread).isSome = true ∧ ∀ other, ¬ crew.WaitsFor thread other := by
  obtain ⟨cell, hcell, -⟩ := hsound.cell_of_call hagenda hcall
  obtain ⟨below, rfl⟩ := hrest.top_of_engaged hagenda hcall hengaged
  constructor
  · rw [Option.isSome_iff_ne_none, ne_eq, proceed_eq_none hagenda, Frame.step,
      Option.map_eq_none_iff]
    exact Call.not_waits hcell hengaged
  · rintro other ⟨waiting, rest, agenda, call', hwaiting, -, -, -, hplace⟩
    rw [hagenda] at hwaiting
    obtain ⟨heq, -⟩ := List.cons.inj (Option.some.inj hwaiting)
    obtain rfl := Frame.call.inj heq
    rcases hplace with ⟨errand, hstage, -⟩ | ⟨old, version, rounds, hstage, -⟩
    · simp [hstage, Stage.phase, Phase.Engaged, Phase.holdsLock, Phase.pinned?] at hengaged
    · simp [hstage, Stage.phase, Phase.Engaged, Phase.holdsLock, Phase.pinned?] at hengaged

/-- A lock that is taken is held by a thread, and a version that shows pins is pinned by one. -/
theorem Sound.waitsFor (hsound : crew.Sound) {waiting : Call} {below : List Frame}
    (hagenda : crew.agendas[thread]? = some (.call waiting :: below))
    (hwaits : waiting.polls crew.world = true ∨ waiting.step crew.world thread = none) :
    ∃ other, crew.WaitsFor thread other := by
  obtain ⟨cell, hcell, hcellSound⟩ := hsound.cell_of_call hagenda List.mem_cons_self
  obtain ⟨listed, hlisted, hslot⟩ := hcellSound.slot
  have hfound : ∀ phase ∈ listed, ∃ call ∈ crew.stakes.callsOn waiting.cell,
      call.stage.phase = phase := by
    intro phase hphase
    have hmem : phase ∈ (crew.stakes.callsOn waiting.cell).map (·.stage.phase) := by
      rw [← hlisted]
      exact hphase
    exact Multiset.mem_map.mp hmem
  rcases Call.waits_cases hcell hwaits with
    ⟨errand, hstage, hlocked⟩ | ⟨old, version, rounds, hstage, hpins⟩
  · have hpos : 0 < listed.countP Phase.holdsLock := by
      rw [hslot.lock, hlocked]
      exact Nat.one_pos
    obtain ⟨phase, hphase, hholds⟩ := List.countP_pos_iff.mp hpos
    obtain ⟨call, hcall, rfl⟩ := hfound phase hphase
    obtain ⟨hname, other, agenda, hother, hframe⟩ := exists_thread hcall
    exact ⟨other, waiting, below, agenda, call, hagenda, hother, hframe, hname,
      .inl ⟨errand, hstage, hholds⟩⟩
  · rw [hslot.pins version, ← Nat.pos_iff_ne_zero] at hpins
    obtain ⟨phase, hphase, hlike⟩ := List.countP_pos_iff.mp hpins
    obtain ⟨call, hcall, rfl⟩ := hfound phase hphase
    obtain ⟨hname, other, agenda, hother, hframe⟩ := exists_thread hcall
    exact ⟨other, waiting, below, agenda, call, hagenda, hother, hframe, hname,
      .inr ⟨old, version, rounds, hstage, hlike⟩⟩

theorem Sound.unchained (hsound : crew.Sound) (hrest : crew.AtRest) {other : ℕ}
    (hwaits : crew.WaitsFor thread other) :
    (crew.proceed other).isSome = true ∧ ∀ third, ¬ crew.WaitsFor other third := by
  obtain ⟨waiting, below, agenda, call, -, hother, hcall, -, hplace⟩ := hwaits
  refine hsound.engaged hrest hother hcall ?_
  rcases hplace with ⟨errand, -, hholds⟩ | ⟨old, version, rounds, -, hlike⟩
  · exact .inl hholds
  · obtain ⟨pinned, hpinned, -⟩ := Option.any_eq_true _ _ |>.mp hlike
    exact .inr (Option.isSome_iff_exists.mpr ⟨pinned, hpinned⟩)

theorem Sound.progressive (hsound : crew.Sound) (hrest : crew.AtRest) : crew.Progressive := by
  have hblocked : ∀ thread agenda, crew.agendas[thread]? = some agenda →
      Frame.Unfinished agenda → crew.proceed thread = none →
        ∃ other, crew.WaitsFor thread other := by
    intro thread agenda hagenda hunfinished hnone
    have hordinary := hsound.ordinary_agenda (List.mem_of_getElem? hagenda)
    obtain ⟨call, below, rfl, hwaits⟩ := Frame.waits_cases hunfinished hordinary
      ((proceed_eq_none hagenda).mp hnone)
    exact hsound.waitsFor hagenda hwaits
  constructor
  case moves =>
    intro agenda hmem hunfinished
    obtain ⟨thread, hagenda⟩ := List.mem_iff_getElem?.mp hmem
    cases hproceed : crew.proceed thread with
    | some next => exact ⟨thread, Option.isSome_of_eq_some hproceed⟩
    | none =>
      obtain ⟨other, hwaits⟩ := hblocked thread agenda hagenda hunfinished hproceed
      exact ⟨other, (hsound.unchained hrest hwaits).1⟩
  case blocked =>
    intro thread agenda hagenda hunfinished hnone
    obtain ⟨other, hwaits⟩ := hblocked thread agenda hagenda hunfinished hnone
    refine ⟨other, ?_, hwaits⟩
    rintro rfl
    exact (hsound.unchained hrest hwaits).2 other hwaits
  case engaged => exact fun _ _ _ hagenda hcall => hsound.engaged hrest hagenda hcall
  case unchained => exact fun _ _ hwaits => hsound.unchained hrest hwaits
  case vain =>
    intro thread next hpolls hstep
    obtain ⟨agenda, world, later, hagenda, hframe, rfl⟩ := step_eq_some hstep
    rw [polls, hagenda, Option.any_some] at hpolls
    unfold Frame.polls at hpolls
    split at hpolls
    · rename_i call below
      obtain ⟨cell, hcell, -⟩ := hsound.cell_of_call hagenda List.mem_cons_self
      obtain ⟨_, _, _, -, hcall⟩ :=
        Call.step_of_polls hsound.world.housed.names hcell hpolls thread
      rw [Frame.step, hcall] at hframe
      exact (Prod.mk.inj (Option.some.inj hframe)).1.symm
    · cases hpolls

/-- However threads that perform ordinary operations interleave, one of them can get ahead as long as
something is under way, and nobody waits for a thread that waits. -/
theorem run_progressive [Lawful β] {programs : List (List Operation)}
    (hordinary : ∀ ops ∈ programs, Operation.ordinaryAll ops = true) (schedule : List ℕ) :
    ((start programs : Crew β).run schedule).Progressive := by
  have hsound : (start programs : Crew β).Sound := start_sound hordinary
  exact (hsound.run schedule).progressive ((start_atRest programs).run hsound schedule)

/-- The writer waits for the pin of the reader, which can go on. -/
theorem run_progressive_stalled : (∀ ops ∈ handover, Operation.ordinaryAll ops = true) ∧
    (((start handover : Crew Staged).run stalled).proceed 1).isNone = true ∧
      (((start handover : Crew Staged).run stalled).proceed 0).isSome = true ∧
        ((start handover : Crew Staged).run stalled).Progressive :=
  ⟨by decide, by decide +kernel, by decide +kernel, run_progressive (by decide) stalled⟩

end Crew

end SharedCell
