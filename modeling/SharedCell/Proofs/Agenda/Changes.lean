import Mathlib
import SharedCell.Proofs.Agenda.StartChanges
import SharedCell.Proofs.Ownership.Step

/-!
# What a step changes

A step of a thread changes the world by a few kinds of changes to objects, handles, tables and the
log, and then lets go of one unit at most.  What each kind of change keeps, and what a release keeps,
is kept by all operations.
-/

namespace SharedCell

open Operation

variable {β : Type} [Resident β]

/-- A guard was asked about an object, or has rejected it. -/
def Event.Judges : Event → Prop
  | .asked _ | .rejected _ => True
  | _ => False

namespace World

/-- A change to a world that takes no unit from an object. -/
inductive Change (thread : ℕ) (world : World β) : World β → Prop where
  | acquire (obj : ObjectId) : Change thread world (world.acquire thread obj)
  | freeze (obj : ObjectId) :
      Change thread world (world.modifyObject obj fun object =>
        { object with body := Resident.freeze object.body })
  | setPayload (obj : ObjectId) (payload : Payload) :
      Change thread world (world.modifyObject obj fun object =>
        { object with body := Resident.setPayload object.body payload })
  | giveUp {owner ref : ObjectId} {next : World β} (htake : world.takeRef owner = some (next, ref)) :
      Change thread world next
  /-- A new object has references to older objects only. -/
  | allocate {object : Object β} {mutability : Mutability} {payload : Payload}
      (hmake : Resident.make mutability payload = some object.body)
      (hlive : object.destroyed = false) (hrefs : ∀ ref ∈ object.refs, ref < world.objects.size) :
      Change thread world (world.addObject object).1
  | record {event : Event} (hjudges : event.Judges) :
      Change thread world (world.record thread event)
  | addHolder (name : String) (unit : ObjectId) : Change thread world (world.addHolder name unit)
  | eraseHolder (id : ℕ) : Change thread world (world.eraseHolder id)
  | useHolder (id : ℕ) :
      Change thread world (world.modifyHolder id fun holder =>
        { holder with users := holder.users + 1 })
  | monopolize (id : ℕ) :
      Change thread world (world.modifyHolder id ({ · with users := 1, exclusive := true }))
  | store (hids : (world.holders.map Holder.id).Nodup) (name : String) (unit : ObjectId) :
      Change thread world (world.store name unit).1
  | endUse (hids : (world.holders.map Holder.id).Nodup) (id : ℕ) :
      Change thread world (world.endUse id).1
  | tables (raws : List (String × ObjectId)) (cells : List (String × Cell))
      (told : List (ObjectId × Reply)) : Change thread world { world with raws, cells, told }

/-- Any number of changes. -/
abbrev Changes (thread : ℕ) : World β → World β → Prop :=
  Relation.ReflTransGen (Change thread)

variable {world next : World β} {thread : ℕ}

/-- The units of handles are on objects that are there. -/
def Known (world : World β) : Prop :=
  ∀ holder ∈ world.holders, holder.unit < world.objects.size

theorem Sound.known {stakes : Stakes} (hsound : world.Sound stakes) : world.Known :=
  fun _ hholder => hsound.books.known _ (Multiset.mem_add.mpr (.inl (owned_of_holder hholder)))

namespace Changes

theorem tables (world : World β) (raws : List (String × ObjectId)) (cells : List (String × Cell))
    (told : List (ObjectId × Reply)) : Changes thread world { world with raws, cells, told } :=
  .single (.tables raws cells told)

theorem of_raws (world : World β) (raws : List (String × ObjectId)) :
    Changes thread world { world with raws } :=
  tables world raws world.cells world.told

theorem of_cells (world : World β) (cells : List (String × Cell)) :
    Changes thread world { world with cells } :=
  tables world world.raws cells world.told

theorem trace (world : World β) {event : Event} (hjudges : event.Judges) :
    Changes thread world (world.trace thread event) := by
  unfold World.trace
  split
  · exact .single (.record hjudges)
  · exact .refl

theorem ask (world : World β) (guard : Guard) (obj : ObjectId) :
    Changes thread world (world.ask thread guard obj) := by
  unfold World.ask
  split
  · exact trace world trivial
  · exact .refl

variable (thread) in
/-- Changes are more than the routine of beginnings. -/
theorem lenient : Lenient thread (Changes thread : World β → World β → Prop) where
  refl _ := .refl
  trans := .trans
  raws := of_raws
  ask := ask
  reject world _ := trace world trivial
  eraseHolder _ id := .single (.eraseHolder id)
  useHolder _ id := .single (.useHolder id)
  monopolize _ id := .single (.monopolize id)
  useCell world _ _ := of_cells world _

variable (thread) in
/-- Changes are all that an operation begins with that makes no object. -/
theorem admits (world : World β) (op : Operation) : world.Admits thread op (Changes thread) where
  lenient := lenient thread
  acquire _ _ _ := .single (.acquire _)
  freeze _ _ _ := .single (.freeze _)
  make _ before _ _ _ := of_cells before _
  erase _ before := of_cells before _

variable (thread) in
/-- The references of a new object are on objects that are there. -/
theorem lt_size_of_gather (hknown : world.Known) (refs : List (Option String)) :
    ∀ ref ∈ (Operation.gather thread refs world).2.1,
      ref < (Operation.gather thread refs world).1.objects.size := by
  have hsize : ∀ (refs : List (Option String)) (world : World β),
      (Operation.gather thread refs world).1.objects.size = world.objects.size := by
    intro refs
    induction refs with
    | nil => exact fun _ => rfl
    | cons ref refs ih =>
      intro world
      rw [Operation.gather]
      split
      · rfl
      · rename_i holder _
        calc (Operation.gather thread refs (world.acquire thread holder.unit)).1.objects.size
            = (world.acquire thread holder.unit).objects.size := ih _
          _ = world.objects.size := Array.size_modify
  rw [hsize]
  induction refs generalizing world with
  | nil => exact fun ref href => absurd href List.not_mem_nil
  | cons ref refs ih =>
    rw [Operation.gather]
    split
    · exact fun ref href => absurd href List.not_mem_nil
    · rename_i holder hfound
      have hsame : (world.acquire thread holder.unit).objects.size = world.objects.size :=
        Array.size_modify
      have hkept : (world.acquire thread holder.unit).Known := by
        intro other hother
        rw [hsame]
        exact hknown other hother
      have hrest := ih hkept
      rw [hsame] at hrest
      exact List.forall_mem_cons.mpr
        ⟨hknown holder (Attempt.shared_of_gathered hfound).1, hrest⟩

end Changes

end World

/-! ## Beginnings of operations -/

namespace Attempt

open World

variable {α γ : Type} {thread : ℕ}

/-- An attempt that changes the world by changes of these kinds. -/
def Alters (thread : ℕ) (attempt : Attempt β α) : Prop :=
  ∀ world value next, attempt.run world = .ok (value, next) → Changes thread world next

/-- All operations but allocations do not depend on what there is in the world. -/
theorem alters_begin {op : Operation} (hordinary : op.ordinary = true)
    (hexisting : op.allocates = false) : (begin? thread op : Attempt β Frame).Alters thread :=
  fun world _ _ hrun => begin_relates hordinary hexisting (Changes.admits thread world op) hrun

/-- A new object refers to objects that there were before. -/
theorem alloc_changes {object : Option String} {value : Option Payload}
    {mutability : Option Mutability} {refs : List (Option String)} {script : List Operation}
    {world next : World β} {frame : Frame} (hknown : world.Known)
    (hrun : (startAlloc thread object value mutability refs script : Attempt β Frame).run world =
      .ok (frame, next)) : Changes thread world next := by
  have hchanges : Changes thread world (gather thread refs world).1 :=
    gather_relates (Changes.admits thread world (.alloc object value mutability refs script)) refs
  rcases alloc_run hrun with
    ⟨fault, -, rfl⟩ | ⟨name, mutability, payload, body, hmake, added, obj, hadd, -, rfl⟩
  · exact hchanges
  · obtain ⟨rfl, rfl⟩ := Prod.mk.inj hadd
    exact (hchanges.tail (.allocate hmake rfl (Changes.lt_size_of_gather thread hknown refs))).tail
      (.addHolder name _)

theorem begin_changes {op : Operation} {world next : World β} {frame : Frame}
    (hordinary : op.ordinary = true) (hknown : world.Known)
    (hrun : (begin? thread op).run world = .ok (frame, next)) : Changes thread world next := by
  cases op with
  | alloc object value mutability refs script => exact alloc_changes hknown hrun
  | race | stress =>
    rw [Operation.ordinary] at hordinary
    cases hordinary
  | _ => exact alters_begin hordinary rfl world frame next hrun

end Attempt

/-! ## Steps -/

/-- What a call on a slot reports: a read that it starts anew, and a replacement that it had to
wait. -/
def Effect.report? : Effect → Option Event
  | .retry observed current attempt => some (.retried observed current attempt)
  | .wait version times => some (.waited version times)
  | _ => none

namespace World

variable {world next : World β} {thread : ℕ} {stakes : Stakes}

/-- What is left of the world, and what is opened on top of the agenda, when changes are followed by
the release of a unit, if any. -/
def Turns (thread : ℕ) (world : World β) (result : World β × List Frame) : Prop :=
  ∃ between unit, Changes thread world between ∧ result = between.letGo? thread unit

namespace Turns

theorem of_changes (hchanges : Changes thread world next) : world.Turns thread (next, []) :=
  ⟨next, none, hchanges, rfl⟩

theorem letGo (hchanges : Changes thread world next) (unit : ObjectId) :
    world.Turns thread (next.letGo thread unit) :=
  ⟨next, some unit, hchanges, rfl⟩

theorem perform (hids : (world.holders.map Holder.id).Nodup) {chore : Chore}
    (hordinary : chore.ordinary = true) : world.Turns thread (chore.perform thread world) := by
  cases chore with
  | release unit => exact letGo .refl unit
  | store name unit => exact ⟨_, _, .single (.store hids name unit), rfl⟩
  | endUse holder => exact ⟨_, _, .single (.endUse hids holder), rfl⟩
  | leaveCell cell => exact of_changes (.of_cells world _)
  | join => cases hordinary
  | resume => cases hordinary

theorem affect (hchanges : Changes thread world next) (guard : Guard) {effect : Option Effect}
    (hsilent : effect.bind Effect.report? = none) :
    world.Turns thread (Call.affect next thread guard effect) := by
  cases effect with
  | none => exact of_changes hchanges
  | some effect =>
    cases effect with
    | acquire obj => exact of_changes (hchanges.tail (.acquire obj))
    | release obj => exact letGo hchanges obj
    | ask obj => exact of_changes (hchanges.trans (Changes.ask next guard obj))
    | reject obj => exact of_changes (hchanges.trans (Changes.trace next trivial))
    | retry | wait => cases hsilent

end Turns

theorem Changes.settle (world : World β) (call : Call) (outcome : Outcome) :
    Changes thread world (call.settle world outcome).1 := by
  obtain ⟨cells, hsettled⟩ := call.exists_settled world outcome
  rw [hsettled]
  exact .of_cells world cells

theorem Changes.start {op : Operation} (hordinary : op.ordinary = true) (hknown : world.Known) :
    Changes thread world (op.start thread world).1 := by
  unfold Operation.start
  split
  · rename_i frame next hrun
    exact Attempt.begin_changes hordinary hknown hrun
  · exact .refl

end World

/-- The phases of a call that reports something. -/
inductive Phase.Reports : Phase → Event → Prop where
  | retry (unit : ObjectId) (observed : ℕ) (attempt : UInt32) (current : ℕ) :
      Reports (.reporting unit observed attempt current) (.retried observed current attempt)
  | wait (old : ObjectId) (version : ℕ) (rounds : UInt32) :
      Reports (.noting old version rounds) (.waited version rounds)

/-- Only a call on a slot that is at such a phase reports anything. -/
theorem Stage.reports_of_step {kind : CellKind} {guard : Guard} {action : Action}
    {facts : ObjectId → Facts} {shape : Text.Layout → ObjectId → Text.Shape} {slot next : Slot}
    {stage later : Stage} {effect : Option Effect} {event : Event}
    (hstep : stage.step kind guard action facts shape slot = some (next, later, effect))
    (hreport : effect.bind Effect.report? = some event) :
    ∃ phase, stage = .calling phase ∧ phase.Reports event := by
  cases move_of_step hstep with
  | call hphase =>
    refine ⟨_, rfl, ?_⟩
    cases Phase.move_of_step hphase with
    | report unit observed attempt current =>
      cases hreport
      exact .retry unit observed attempt current
    | note old version rounds =>
      cases hreport
      exact .wait old version rounds
    | _ => cases hreport
  | _ => cases hreport

/-- A call that is about to report something makes no step but to report this. -/
def Frame.Reports (thread : ℕ) (world next : World β) (agenda : List Frame) (event : Event) :
    Prop :=
  ∃ call below phase between, agenda = .call call :: below ∧ call.stage = .calling phase ∧
    phase.Reports event ∧ World.Changes thread world between ∧ next = between.trace thread event

/-- A step makes changes and lets go of a unit, if any, and what this opens goes on top, unless it
is a report. -/
theorem Frame.step_turns {world next : World β} {thread : ℕ} {stakes : Stakes}
    {agenda later : List Frame} (hsound : world.Sound stakes)
    (hordinary : ∀ frame ∈ agenda, frame.ordinary = true)
    (hstep : step thread world agenda = some (next, later)) :
    (∃ opened rest, later = opened ++ rest ∧ world.Turns thread (next, opened)) ∨
      ∃ event, Reports thread world next agenda event := by
  have hknown := hsound.known
  have htop := fun top (hmem : top ∈ agenda) => hordinary top hmem
  cases move_of_step hstep with
  | @call active _ frames below hactive =>
    rcases Call.step_cases hactive with
      ⟨outcome, -, rfl, rfl⟩ | ⟨cell, slot, stage, effect, -, hstage, rfl, rfl⟩
    · exact .inl ⟨[], _, rfl, .of_changes (.settle world active outcome)⟩
    · cases hreport : effect.bind Effect.report? with
      | some event =>
        obtain ⟨phase, hphase, hreports⟩ := Stage.reports_of_step hstage hreport
        refine .inr ⟨event, active, below, phase, world.modifyCell active.cell ({ · with slot }), rfl,
          hphase, hreports, .of_cells world _, ?_⟩
        obtain ⟨effect, rfl, heffect⟩ := Option.bind_eq_some_iff.mp hreport
        cases effect <;> cases heffect <;> rfl
      | none =>
        rw [List.append_assoc]
        exact .inl ⟨_, _, rfl, .affect (.of_cells world _) cell.guard hreport⟩
  | write holder payload below hobject hsole =>
    exact .inl ⟨[], _, rfl, .of_changes (.single (.setPayload _ payload))⟩
  | reply told frame below =>
    refine .inl ⟨[], _, rfl, .of_changes ?_⟩
    cases frame with
    | script owner ops => exact .tables world world.raws world.cells _
    | _ => exact .refl
  | chore chore chores told below =>
    have hchore := htop _ List.mem_cons_self
    rw [Frame.ordinary, List.all_cons, Bool.and_eq_true] at hchore
    exact .inl ⟨_, _, rfl, .perform hsound.held.ids hchore.1⟩
  | tell owner op ops below =>
    have hscript := htop _ List.mem_cons_self
    rw [Frame.ordinary, ordinaryAll_cons] at hscript
    exact .inl ⟨[], _, rfl, .of_changes (.start hscript.1 hknown)⟩
  | surrender below htake => exact .inl ⟨_, _, rfl, .letGo (.single (.giveUp htake)) _⟩
  | perform remaining body op ops replies below =>
    have hrounds := htop _ List.mem_cons_self
    rw [Frame.ordinary, Bool.and_eq_true, ordinaryAll_cons] at hrounds
    exact .inl ⟨[], _, rfl, .of_changes (.start hrounds.2.1 hknown)⟩
  | stress tally below => cases htop _ List.mem_cons_self
  -- The other moves leave the world as it is.
  | refuse | look | told | surrendered | ended | again =>
    exact .inl ⟨[], _, rfl, .of_changes .refl⟩

/-! ## The log -/

namespace Event

/-- What a call on a slot has reported. -/
def isReport : Event → Bool
  | .retried .. | .waited .. => true
  | _ => false

theorem Judges.not_report {event : Event} (hjudges : event.Judges) : event.isReport = false := by
  cases event <;> first | rfl | exact hjudges.elim

end Event

theorem Phase.Reports.isReport {phase : Phase} {event : Event} (hreports : phase.Reports event) :
    event.isReport = true := by
  cases hreports <;> rfl

namespace World

/-- A thread adds events to the log, and none but allowed ones. -/
def Logs (thread : ℕ) (allowed : Event → Prop) (world next : World β) : Prop :=
  ∃ events, next.log = events ++ world.log ∧ ∀ entry ∈ events, entry.1 = thread ∧ allowed entry.2

variable {world next last : World β} {thread : ℕ} {allowed other : Event → Prop}

namespace Logs

omit [Resident β]

theorem of_log (hlog : next.log = world.log) : Logs thread allowed world next :=
  ⟨[], hlog, fun _ hentry => absurd hentry List.not_mem_nil⟩

theorem of_cons {event : Event} (hlog : next.log = (thread, event) :: world.log)
    (hallowed : allowed event) : Logs thread allowed world next :=
  ⟨[(thread, event)], hlog, List.forall_mem_singleton.mpr ⟨rfl, hallowed⟩⟩

theorem trans (hfirst : Logs thread allowed world next) (hsecond : Logs thread allowed next last) :
    Logs thread allowed world last := by
  obtain ⟨events, hevents, hall⟩ := hfirst
  obtain ⟨more, hmore, hagain⟩ := hsecond
  refine ⟨more ++ events, ?_, ?_⟩
  · rw [hmore, hevents, List.append_assoc]
  · exact List.forall_mem_append.mpr ⟨hagain, hall⟩

theorem mono (hlogs : Logs thread allowed world next) (hmono : ∀ event, allowed event → other event) :
    Logs thread other world next := by
  obtain ⟨events, hevents, hall⟩ := hlogs
  exact ⟨events, hevents, fun entry hentry =>
    ⟨(hall entry hentry).1, hmono entry.2 (hall entry hentry).2⟩⟩

end Logs

theorem Change.logs (hchange : Change thread world next) :
    Logs thread (·.isReport = false) world next := by
  cases hchange with
  | acquire obj => exact .of_cons rfl rfl
  | giveUp htake =>
    obtain ⟨object, refs, -, -, rfl⟩ := takeRef_eq_some htake
    exact .of_log rfl
  | record hjudges => exact .of_cons rfl hjudges.not_report
  | store hids name unit =>
    obtain ⟨holders, nextHolder, hstored⟩ := world.exists_stored name unit
    exact .of_log (by rw [hstored])
  | endUse hids id =>
    obtain ⟨holders, hended⟩ := world.exists_endUsed id
    exact .of_log (by rw [hended])
  | freeze | setPayload | allocate | addHolder | eraseHolder | useHolder | monopolize | tables =>
    exact .of_log rfl

theorem Changes.logs (hchanges : Changes thread world next) :
    Logs thread (·.isReport = false) world next := by
  induction hchanges with
  | refl => exact .of_log rfl
  | tail _ hchange ih => exact ih.trans hchange.logs

theorem logs_release (world : World β) (thread : ℕ) (obj : ObjectId) :
    Logs thread (·.isReport = false) world (world.release thread obj) := by
  refine ⟨_, (Books.log_release world thread obj).trans (List.append_cons _ _ _), ?_⟩
  split <;> simp [Event.isReport]

theorem Turns.logs {opened : List Frame} (hturns : world.Turns thread (next, opened)) :
    Logs thread (·.isReport = false) world next := by
  obtain ⟨between, unit, hchanges, hresult⟩ := hturns
  obtain ⟨rfl, -⟩ := Prod.mk.inj hresult
  cases unit with
  | none => exact hchanges.logs
  | some unit => exact hchanges.logs.trans (logs_release between thread unit)

end World

/-- A step adds to the log, and adds a report only if this is the call on top. -/
theorem Frame.step_logs {world next : World β} {thread : ℕ} {stakes : Stakes}
    {agenda later : List Frame} (hsound : world.Sound stakes)
    (hordinary : ∀ frame ∈ agenda, frame.ordinary = true)
    (hstep : step thread world agenda = some (next, later)) :
    world.Logs thread (fun event => event.isReport = true →
      Reports thread world next agenda event) next := by
  have hsilent {between : World β} (hlogs : world.Logs thread (·.isReport = false) between) :
      world.Logs thread (fun event => event.isReport = true →
        Reports thread world next agenda event) between :=
    hlogs.mono fun event hevent hreport => absurd (hevent.symm.trans hreport) (by simp)
  rcases step_turns hsound hordinary hstep with ⟨opened, rest, -, hturns⟩ | ⟨event, hreports⟩
  · exact hsilent hturns.logs
  · have hreport := hreports
    obtain ⟨call, below, phase, between, -, -, -, hchanges, hnext⟩ := hreport
    have htraced : between.Logs thread (fun event => event.isReport = true →
        Reports thread world next agenda event) next := by
      unfold World.trace at hnext
      split at hnext
      · exact .of_cons (congrArg World.log hnext) fun _ => hreports
      · exact .of_log (congrArg World.log hnext)
    exact (hsilent hchanges.logs).trans htraced

end SharedCell
