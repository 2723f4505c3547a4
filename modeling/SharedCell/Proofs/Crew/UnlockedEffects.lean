import Mathlib
import SharedCell.Proofs.Crew.Atomic
import SharedCell.Proofs.Crew.Records
import SharedCell.Proofs.Crew.UndisturbedCalls
import SharedCell.Proofs.Crew.CallsUnderWay

/-!
# Effects beside locks and pins

Whatever runs code of others, which is the release of a unit, a question to a guard or a report,
happens while the thread holds no lock and has no pin.  So it is also with the reports of reads that
start anew and of replacements that had to wait for readers.  Units are acquired under the lock only
on what the caller wants to store, and under a pin only on what the slot holds.  A thread that is
alone therefore finds all locks free and all pins dropped whenever it does anything but call a slot,
it never waits, and no read starts anew.
-/

namespace SharedCell

variable {β : Type} [Resident β]

namespace Phase

/-- A call on a slot that does anything else than to acquire a unit holds no lock and has no
pin. -/
theorem effect_cases {slot next : Slot} {phase later : Phase} {effect : Effect}
    (hstep : phase.step slot = some (next, later, some effect)) :
    (¬ phase.Engaged ∧ ∀ obj, effect ≠ .acquire obj) ∨
      ∃ obj, effect = .acquire obj ∧ (phase = .acquiringNew obj ∨
        ∃ purpose version, phase = .acquiring purpose obj version) := by
  cases move_of_step hstep with
  | acquire purpose content version => exact .inr ⟨content, rfl, .inr ⟨purpose, version, rfl⟩⟩
  | acquireNew new => exact .inr ⟨new, rfl, .inl rfl⟩
  | note | report | discard => exact .inl ⟨by simp [Engaged, holdsLock, pinned?], by simp⟩

/-- A call that is about to report has no lock and no pin. -/
theorem Reports.not_engaged {phase : Phase} {event : Event} (hreports : phase.Reports event) :
    ¬ phase.Engaged := by
  cases hreports <;> simp [Engaged, holdsLock, pinned?]

/-- Who is about to report how often it has looked at pins in vain has done so. -/
def Waited : Phase → Prop
  | .noting _ _ rounds => rounds ≠ 0
  | _ => True

theorem waited_step {slot next : Slot} {phase later : Phase} {effect : Option Effect}
    (hstep : phase.step slot = some (next, later, effect)) : later.Waited := by
  cases move_of_step hstep with
  | copy errand =>
    cases errand <;> simp only [copied] <;> repeat' split
    all_goals trivial
  | unpin purpose => cases purpose <;> trivial
  | emerge old hwaited => exact hwaited
  | _ => trivial

end Phase

namespace Stage

theorem not_engaged_done (result : Yield) : ¬ (Phase.done result).Engaged :=
  Phase.not_engaged_of_idle (idle_done result)

theorem effect_cases {kind : CellKind} {guard : Guard} {action : Action} {facts : ObjectId → Facts}
    {shape : Text.Layout → ObjectId → Text.Shape} {slot next : Slot} {stage later : Stage}
    {effect : Effect}
    (hstep : stage.step kind guard action facts shape slot = some (next, later, some effect)) :
    (¬ stage.phase.Engaged ∧ ∀ obj, effect ≠ .acquire obj) ∨
      ∃ obj, effect = .acquire obj ∧ (stage = .calling (.acquiringNew obj) ∨
        ∃ purpose version, stage = .calling (.acquiring purpose obj version)) := by
  cases move_of_step hstep with
  | call hphase =>
    rcases Phase.effect_cases hphase with
      hfree | ⟨obj, rfl, rfl | ⟨purpose, version, rfl⟩⟩
    · exact .inl hfree
    · exact .inr ⟨obj, rfl, .inl rfl⟩
    · exact .inr ⟨obj, rfl, .inr ⟨purpose, version, rfl⟩⟩
  | _ => exact .inl ⟨not_engaged_done {}, by simp⟩

theorem Past.waited {stage : Stage} (hpast : stage.Past) : stage.phase.Waited := by
  cases stage <;> first | exact hpast.elim | trivial

/-- Nothing but its own steps takes a call to its report. -/
theorem heeded_waited : Crew.Heeded fun _ stage => stage.phase.Waited where
  opening register kind action := by
    unfold Action.opening
    split <;> trivial
  own kind guard action facts shape slot next stage later effect hwaited hstep := by
    cases move_of_step hstep with
    | call hphase => exact Phase.waited_step hphase
    | receive result => exact (past_received kind result action).waited
    | _ => trivial
  others _ _ _ _ hwaited := hwaited

end Stage

namespace Frame

/-- A call that holds the lock of its slot or has a pin. -/
def Engaged : Frame → Prop
  | .call active => active.stage.phase.Engaged
  | _ => False

/-- A thread that holds no lock and has no pin. -/
def Free (agenda : List Frame) : Prop :=
  ∀ frame ∈ agenda, ¬ frame.Engaged

theorem AtRest.not_engaged {frame : Frame} (hrest : frame.AtRest) : ¬ frame.Engaged := by
  cases frame with
  | call active => exact Phase.not_engaged_of_idle hrest
  | _ => exact id

end Frame

namespace Crew

variable {crew next : Crew β} {thread : ℕ} {agenda : List Frame}

/-- How a call acquires units: under the lock, without a pin, on what the caller wants to store and
keeps a handle on, or under a pin, without the lock, on what the slot holds or a call that has
displaced it keeps. -/
inductive Acquires (crew : Crew β) (call : Call) (obj : ObjectId) : Prop where
  | argument (hlock : call.stage.phase.holdsLock = true) (hpin : call.stage.phase.pinned? = none)
      (hnew : call.action.new? = some obj)
      (hkept : ∃ holder ∈ crew.world.holders, holder.id ∈ call.holders ∧ holder.unit = obj)
  | content (version : ℕ) (hlock : call.stage.phase.holdsLock = false)
      (hpin : call.stage.phase.pinned? = some version)
      (hcontent : call.stage.phase.pinnedContent? = some (obj, version))
      (hkept : (∃ cell, crew.world.cell? call.cell = some cell ∧
          cell.slot.content = some obj ∧ cell.slot.version = version) ∨
        ∃ other, .call other ∈ crew.agendas.flatten ∧ other.cell = call.cell ∧
          other.stage.phase.displaced? = some (obj, version))

/-- What threads do while they hold locks or have pins. -/
structure Discreet (crew : Crew β) : Prop where
  /-- A thread that was interrupted holds nothing. -/
  interrupted : ∀ agenda ∈ crew.agendas, Frame.Free agenda.tail
  /-- A thread that does anything but make a call on a cell holds nothing. -/
  others : ∀ agenda ∈ crew.agendas, (∀ call below, agenda ≠ .call call :: below) →
    Frame.Free agenda
  /-- A call that ends holds nothing. -/
  ends : ∀ call below outcome, .call call :: below ∈ crew.agendas →
    call.stage = .finished outcome → Frame.Free (.call call :: below)
  /-- A call releases units, asks guards and reports events while the thread holds nothing. -/
  effects : ∀ call below effect, .call call :: below ∈ crew.agendas →
    call.effect? crew.world = some effect →
      (Frame.Free (.call call :: below) ∧ ∀ obj, effect ≠ .acquire obj) ∨
        ∃ obj, effect = .acquire obj ∧ crew.Acquires call obj
  /-- So it is with all that is logged, whether or not it is done by a call. -/
  logged : ∀ thread agenda next, crew.agendas[thread]? = some agenda →
    crew.step thread = some next → ∃ events, next.world.log = events ++ crew.world.log ∧
      ∀ entry ∈ events, entry.1 = thread ∧ (Frame.Free agenda ∨
        ∃ call below obj count, agenda = .call call :: below ∧
          entry.2 = .acquired obj count ∧ crew.Acquires call obj)
  /-- Reports that a read starts anew, or that a replacement had to wait, are logged by calls that
  are at this point and hold nothing. -/
  reports : ∀ thread agenda next events, crew.agendas[thread]? = some agenda →
    crew.step thread = some next → next.world.log = events ++ crew.world.log →
      ∀ entry ∈ events, entry.2.isReport = true → Frame.Free agenda ∧
        ∃ call below phase, agenda = .call call :: below ∧ call.stage = .calling phase ∧
          phase.Reports entry.2 ∧ phase.Waited
  /-- And a call that is at this point logs its report with its next step. -/
  reported : ∀ thread call below phase event next,
    crew.agendas[thread]? = some (.call call :: below) → call.stage = .calling phase →
      phase.Reports event → crew.step thread = some next →
        next.world.log = (thread, event) :: crew.world.log

omit [Resident β] in
theorem AtRest.free_tail (hrest : crew.AtRest) (hagenda : agenda ∈ crew.agendas) :
    Frame.Free agenda.tail :=
  fun frame hframe => (hrest agenda hagenda frame hframe).not_engaged

omit [Resident β] in
theorem AtRest.free (hrest : crew.AtRest) {frame : Frame} {below : List Frame}
    (hagenda : frame :: below ∈ crew.agendas) (hframe : ¬ frame.Engaged) :
    Frame.Free (frame :: below) :=
  List.forall_mem_cons.mpr ⟨hframe, hrest.free_tail hagenda⟩

omit [Resident β] in
/-- Only a call on a cell can hold anything. -/
theorem AtRest.free_others (hrest : crew.AtRest) (hagenda : agenda ∈ crew.agendas)
    (hother : ∀ call below, agenda ≠ .call call :: below) : Frame.Free agenda := by
  cases agenda with
  | nil => exact fun frame hframe => absurd hframe List.not_mem_nil
  | cons top below =>
    cases top with
    | call active => exact absurd rfl (hother active below)
    | _ => exact hrest.free hagenda id

/-- What is pinned is in the slot, or is kept by the call that has displaced it. -/
theorem Sound.pinned_kept (hsound : crew.Sound) {call : Call} {obj version : ℕ}
    (hagenda : crew.agendas[thread]? = some agenda) (hcall : .call call ∈ agenda)
    (hpinned : call.stage.phase.pinnedContent? = some (obj, version)) :
    (∃ cell, crew.world.cell? call.cell = some cell ∧
        cell.slot.content = some obj ∧ cell.slot.version = version) ∨
      ∃ other, .call other ∈ crew.agendas.flatten ∧ other.cell = call.cell ∧
        other.stage.phase.displaced? = some (obj, version) := by
  obtain ⟨cell, hcell, hcellSound⟩ := hsound.cell_of_call hagenda hcall
  obtain ⟨listed, hlisted, hslot⟩ := hcellSound.slot
  have hmem (phase : Phase) : phase ∈ listed ↔
      ∃ other ∈ crew.stakes.callsOn call.cell, other.stage.phase = phase := by
    rw [← Multiset.mem_coe, hlisted, Multiset.mem_map]
  have hmine : call ∈ crew.stakes.callsOn call.cell :=
    Stakes.mem_callsOn.mpr ⟨Stakes.mem_calls_of_mem
      (List.mem_flatten.mpr ⟨agenda, List.mem_of_getElem? hagenda, hcall⟩), rfl⟩
  rcases hslot.pinned _ ((hmem _).mpr ⟨call, hmine, rfl⟩) obj version hpinned with
    ⟨hcontent, hversion⟩ | ⟨phase, hphase, hdisplaced⟩
  · exact .inl ⟨cell, hcell, hcontent, hversion⟩
  · obtain ⟨other, hother, rfl⟩ := (hmem phase).mp hphase
    obtain ⟨hcalls, hname⟩ := Stakes.mem_callsOn.mp hother
    exact .inr ⟨other, Stakes.mem_of_mem_calls hcalls, hname, hdisplaced⟩

theorem Sound.effect_cases (hsound : crew.Sound) (hrest : crew.AtRest) {call : Call}
    {below : List Frame} {cell : Cell} {slot : Slot} {stage : Stage} {effect : Effect}
    (hagenda : .call call :: below ∈ crew.agendas) (hcell : crew.world.cell? call.cell = some cell)
    (hstage : call.stage.step cell.kind cell.guard call.action crew.world.facts crew.world.shape
      cell.slot = some (slot, stage, some effect)) :
    (Frame.Free (.call call :: below) ∧ ∀ obj, effect ≠ .acquire obj) ∨
      ∃ obj, effect = .acquire obj ∧ crew.Acquires call obj := by
  obtain ⟨thread, hthread⟩ := List.mem_iff_getElem?.mp hagenda
  have hcalls : call ∈ crew.stakes.calls :=
    Stakes.mem_calls_of_mem (List.mem_flatten.mpr ⟨_, hagenda, List.mem_cons_self⟩)
  rcases Stage.effect_cases hstage with
    ⟨hfree, hother⟩ | ⟨obj, rfl, hnew | ⟨purpose, version, hcontent⟩⟩
  · exact .inl ⟨hrest.free hagenda hfree, hother⟩
  · have hfits := (hsound.world.housed.sound call.cell cell (mem_of_lookup hcell)).fits call
      (Stakes.mem_callsOn.mpr ⟨hcalls, rfl⟩)
    have hpending : call.stage.pending? = some obj := by
      rw [hnew]
      rfl
    have haction := hfits.2 obj hpending
    refine .inr ⟨obj, rfl, .argument ?_ ?_ haction
      (hsound.world.held.backed call hcalls obj haction)⟩
    · rw [hnew]
      rfl
    · rw [hnew]
      rfl
  · have hpinned : call.stage.phase.pinnedContent? = some (obj, version) := by
      rw [hcontent]
      rfl
    refine .inr ⟨obj, rfl, .content version ?_ ?_ hpinned
      (hsound.pinned_kept hthread List.mem_cons_self hpinned)⟩
    · rw [hcontent]
      rfl
    · rw [hcontent]
      rfl

/-- What a call that acquires a unit adds to the log. -/
theorem Sound.logged_call (hsound : crew.Sound) (hrest : crew.AtRest) {call : Call}
    {below frames : List Frame} {world : World β} (hagenda : .call call :: below ∈ crew.agendas)
    (hengaged : ¬ Frame.Free (.call call :: below))
    (hstep : call.step crew.world thread = some (world, frames)) :
    ∃ events, world.log = events ++ crew.world.log ∧ ∀ entry ∈ events, entry.1 = thread ∧
      ∃ obj count, entry.2 = .acquired obj count ∧ crew.Acquires call obj := by
  rcases Call.step_cases hstep with
    ⟨outcome, hfinished, -, -⟩ | ⟨cell, slot, stage, effect, hcell, hstage, rfl, -⟩
  · refine absurd (hrest.free hagenda ?_) hengaged
    rw [Frame.Engaged, hfinished]
    exact Stage.not_engaged_done {}
  · cases effect with
    | none => exact ⟨[], rfl, fun _ hentry => absurd hentry List.not_mem_nil⟩
    | some effect =>
      rcases hsound.effect_cases hrest hagenda hcell hstage with
        ⟨hfree, -⟩ | ⟨obj, rfl, hacquires⟩
      · exact absurd hfree hengaged
      · exact ⟨[_], rfl, List.forall_mem_singleton.mpr ⟨rfl, obj, _, rfl, hacquires⟩⟩

/-- What a thread adds to the log while it holds something is the acquisition of a unit. -/
theorem Sound.logged (hsound : crew.Sound) (hrest : crew.AtRest)
    (hagenda : crew.agendas[thread]? = some agenda) (hstep : crew.step thread = some next) :
    ∃ events, next.world.log = events ++ crew.world.log ∧
      ∀ entry ∈ events, entry.1 = thread ∧ (Frame.Free agenda ∨
        ∃ call below obj count, agenda = .call call :: below ∧
          entry.2 = .acquired obj count ∧ crew.Acquires call obj) := by
  have hmem := List.mem_of_getElem? hagenda
  obtain ⟨found, world, later, hfound, hframe, rfl⟩ := step_eq_some hstep
  obtain rfl := Option.some.inj (hagenda.symm.trans hfound)
  by_cases hfree : Frame.Free agenda
  · obtain ⟨events, hevents, hall⟩ :=
      Frame.step_logs hsound.world (hsound.ordinary_agenda hmem) hframe
    exact ⟨events, hevents, fun entry hentry => ⟨(hall entry hentry).1, .inl hfree⟩⟩
  · obtain ⟨active, below, rfl⟩ : ∃ call below, agenda = .call call :: below := by
      by_contra hother
      exact hfree (hrest.free_others hmem fun call below heq => hother ⟨call, below, heq⟩)
    obtain ⟨⟨after, frames⟩, hactive, hresult⟩ := Option.map_eq_some_iff.mp hframe
    obtain ⟨rfl, rfl⟩ := Prod.mk.inj hresult
    obtain ⟨events, hevents, hall⟩ := hsound.logged_call hrest hmem hfree hactive
    refine ⟨events, hevents, fun entry hentry => ?_⟩
    obtain ⟨hthread, obj, count, hacquired, hacquires⟩ := hall entry hentry
    exact ⟨hthread, .inr ⟨active, below, obj, count, rfl, hacquired, hacquires⟩⟩

/-- A call reports while it holds nothing. -/
theorem Sound.reports (hsound : crew.Sound) (hrest : crew.AtRest)
    (hwaited : crew.Heeds fun _ stage => stage.phase.Waited)
    (hagenda : crew.agendas[thread]? = some agenda) (hstep : crew.step thread = some next)
    {events : List (ℕ × Event)} (hlog : next.world.log = events ++ crew.world.log) :
    ∀ entry ∈ events, entry.2.isReport = true → Frame.Free agenda ∧
      ∃ call below phase, agenda = .call call :: below ∧ call.stage = .calling phase ∧
        phase.Reports entry.2 ∧ phase.Waited := by
  intro entry hentry hreport
  have hmem := List.mem_of_getElem? hagenda
  obtain ⟨found, world, later, hfound, hframe, rfl⟩ := step_eq_some hstep
  obtain rfl := Option.some.inj (hagenda.symm.trans hfound)
  obtain ⟨others, hothers, hall⟩ :=
    Frame.step_logs hsound.world (hsound.ordinary_agenda hmem) hframe
  obtain rfl : events = others := List.append_cancel_right (hlog.symm.trans hothers)
  obtain ⟨call, below, phase, between, rfl, hphase, hreports, -⟩ := (hall entry hentry).2 hreport
  obtain ⟨register, -, hstage⟩ := hwaited thread _ call hagenda List.mem_cons_self
  rw [hphase] at hstage
  refine ⟨hrest.free hmem ?_, call, below, phase, rfl, hphase, hreports, hstage⟩
  rw [Frame.Engaged, hphase]
  exact hreports.not_engaged

/-- A call that is about to report does so. -/
theorem Sound.reported (hsound : crew.Sound) (htraced : crew.world.traced = true) {call : Call}
    {below : List Frame} {phase : Phase} {event : Event}
    (hagenda : crew.agendas[thread]? = some (.call call :: below))
    (hphase : call.stage = .calling phase) (hreports : phase.Reports event)
    (hstep : crew.step thread = some next) :
    next.world.log = (thread, event) :: crew.world.log := by
  obtain ⟨cell, hcell, -⟩ := hsound.cell_of_call hagenda List.mem_cons_self
  rcases Sound.step_own hagenda hstep with
    ⟨outcome, hfinished⟩ | ⟨found, slot, stage, effect, hfound, hstage, hnext, -⟩
  · cases hphase.symm.trans hfinished
  · have hkept : (crew.world.modifyCell call.cell ({ · with slot })).traced = true := htraced
    rw [hphase] at hstage
    cases hreports <;>
    · cases hstage
      rw [hnext]
      exact congrArg World.log (if_pos hkept)

theorem Sound.discreet (hsound : crew.Sound) (hrest : crew.AtRest)
    (hwaited : crew.Heeds fun _ stage => stage.phase.Waited)
    (htraced : crew.world.traced = true) : crew.Discreet := by
  constructor
  case interrupted => exact fun agenda hagenda => hrest.free_tail hagenda
  case others => exact fun agenda hagenda hother => hrest.free_others hagenda hother
  case ends =>
    intro call below outcome hagenda hfinished
    refine hrest.free hagenda ?_
    rw [Frame.Engaged, hfinished]
    exact Stage.not_engaged_done {}
  case effects =>
    intro call below effect hagenda heffect
    unfold Call.effect? at heffect
    simp only [Option.bind_eq_bind, Option.bind_eq_some_iff] at heffect
    obtain ⟨cell, hcell, ⟨slot, stage, effect⟩, hstage, rfl⟩ := heffect
    exact hsound.effect_cases hrest hagenda hcell hstage
  case logged => exact fun _ _ _ hagenda hstep => hsound.logged hrest hagenda hstep
  case reports =>
    exact fun _ _ _ _ hagenda hstep hlog => hsound.reports hrest hwaited hagenda hstep hlog
  case reported =>
    exact fun _ _ _ _ _ _ hagenda hphase hreports hstep =>
      hsound.reported htraced hagenda hphase hreports hstep

/-- What a thread that is alone never has to do. -/
structure Unhindered (crew : Crew β) : Prop where
  /-- Nothing is locked or pinned but by the call on a slot that the thread is in the middle of. -/
  free : ∀ agenda ∈ crew.agendas, Frame.Free agenda → ∀ name cell,
    crew.world.cell? name = some cell → cell.slot.locked = false ∧ cell.slot.pins = {}
  /-- The thread waits neither for a lock nor for pins. -/
  moves : ∀ thread agenda, crew.agendas[thread]? = some agenda → Frame.Unfinished agenda →
    (crew.proceed thread).isSome = true
  /-- No read is about to start anew, and no replacement is about to report that it has waited. -/
  reports : ∀ call phase event, .call call ∈ crew.agendas.flatten → call.stage = .calling phase →
    ¬ phase.Reports event
  /-- No read has started anew, and no replacement has waited. -/
  unreported : ∀ entry ∈ crew.world.log, entry.2.isReport = false

/-- A slot that no call has locked or pinned. -/
theorem Sound.slot_free (hsound : crew.Sound) (honly : crew.agendas = [agenda])
    (hfree : Frame.Free agenda) {name : String} {cell : Cell}
    (hcell : crew.world.cell? name = some cell) :
    cell.slot.locked = false ∧ cell.slot.pins = {} := by
  obtain ⟨listed, hlisted, hslot⟩ :=
    (hsound.world.housed.sound name cell (mem_of_lookup hcell)).slot
  have hphases : ∀ phase ∈ listed, ¬ phase.Engaged := by
    intro phase hphase
    rw [← Multiset.mem_coe, hlisted] at hphase
    obtain ⟨call, hcall, rfl⟩ := Multiset.mem_map.mp hphase
    have hframe := Stakes.mem_of_mem_calls (Stakes.mem_callsOn.mp hcall).1
    rw [honly, List.flatten_singleton] at hframe
    exact hfree _ hframe
  have hlock : listed.countP Phase.holdsLock = 0 :=
    List.countP_eq_zero.mpr fun phase hphase hholds => hphases phase hphase (.inl hholds)
  have hpins (version : ℕ) : cell.slot.pins.count version = 0 := by
    rw [hslot.pins version, List.countP_eq_zero]
    intro phase hphase hlike
    obtain ⟨pinned, hpinned, -⟩ := Option.any_eq_true _ _ |>.mp hlike
    exact hphases phase hphase (.inr (Option.isSome_iff_exists.mpr ⟨pinned, hpinned⟩))
  constructor
  · rw [hslot.lock] at hlock
    exact Bool.toNat_eq_zero.mp hlock
  · have heven : cell.slot.pins.even = 0 := hpins 0
    have hodd : cell.slot.pins.odd = 0 := hpins 1
    cases hslots : cell.slot.pins with
    | mk even odd =>
      rw [hslots] at heven hodd
      rw [show even = 0 from heven, show odd = 0 from hodd]

theorem Steady.unhindered (hsteady : crew.Steady) : crew.Unhindered := by
  have hsound := hsteady.alone.sound
  obtain ⟨only, honly⟩ := hsteady.alone.alone
  constructor
  case free =>
    intro agenda hagenda hfree name cell hcell
    obtain rfl := List.mem_singleton.mp (honly ▸ hagenda)
    exact hsound.slot_free honly hfree hcell
  case moves =>
    intro thread agenda hagenda hunfinished
    rw [Option.isSome_iff_ne_none]
    intro hnone
    obtain ⟨other, -, hwaits⟩ :=
      (hsound.progressive hsteady.alone.rest).blocked thread agenda hagenda hunfinished hnone
    exact hsteady.alone.not_waitsFor hwaits
  case reports =>
    intro call phase event hcall hphase hreports
    obtain ⟨agenda, hagenda, hframe⟩ := List.mem_flatten.mp hcall
    obtain ⟨thread, hthread⟩ := List.mem_iff_getElem?.mp hagenda
    obtain ⟨cell, hcell, -⟩ := hsound.cell_of_call hthread hframe
    have hundisturbed := hsteady.undisturbed agenda hagenda _ hframe cell hcell
    rw [hphase] at hundisturbed
    cases hreports <;> exact hundisturbed
  case unreported => exact hsteady.unreported

/-- However threads that perform ordinary operations interleave, nothing but units is asked for
under a lock or a pin; and a thread that is alone never waits and never reads twice. -/
theorem run_discreet [Lawful β] {programs : List (List Operation)}
    (hordinary : ∀ ops ∈ programs, Operation.ordinaryAll ops = true) (schedule : List ℕ) :
    ((start programs : Crew β).run schedule).Discreet ∧
      (programs.length = 1 → ((start programs : Crew β).run schedule).Unhindered) := by
  have hsound : (start programs : Crew β).Sound := start_sound hordinary
  refine ⟨(hsound.run schedule).discreet ((start_atRest programs).run hsound schedule)
    (hsound.heeds Stage.heeded_waited (start_heeds programs _) schedule)
    (hsound.traced_run rfl schedule), ?_⟩
  intro hlength
  obtain ⟨ops, rfl⟩ := List.length_eq_one_iff.mp hlength
  exact ((start_steady (hordinary ops List.mem_cons_self)).run schedule).unhindered

/-- In the middle of a script the cell is locked, by the call that the script makes. -/
theorem run_discreet_reentry : (∀ ops ∈ [reentry], Operation.ordinaryAll ops = true) ∧
    ((((start [reentry] : Crew Staged).run (List.replicate 21 0)).world.cell? "c").map
      (·.slot.locked)) = some true ∧
    ((start [reentry] : Crew Staged).run (List.replicate 21 0)).Discreet ∧
      ([reentry].length = 1 →
        ((start [reentry] : Crew Staged).run (List.replicate 21 0)).Unhindered) :=
  ⟨by decide, by decide +kernel, run_discreet (by decide) (List.replicate 21 0)⟩

end Crew

end SharedCell
