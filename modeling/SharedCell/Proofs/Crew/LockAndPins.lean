import Mathlib
import SharedCell.Proofs.Crew.CallsUnderWay
import SharedCell.Proofs.Slot.PinnedVersions

/-!
# Lock and pins of shared cells

However threads interleave, the lock of a cell is taken exactly as long as one call holds it, and
nobody else reads or writes content and version meanwhile.  The two pin counters forget which
version a pin belongs to, but every pin is on the content of the version that it was taken at: that
content is still in the cell, or the one call that displaced it still waits for the pin.  So no
reader of a version is left when the wait for it ends, and as long as the next version is the
present one, the counter that is waited for can only fall.
-/

namespace SharedCell

open Stakes

/-! ## One cell -/

namespace Slot

/-- What lock and pins of a slot tell of the calls that are in progress on it. -/
structure Interlocked (slot : Slot) (calls : Multiset Call) : Prop where
  /-- The lock is taken if and only if one call holds it, and no two calls do. -/
  lock : calls.countP (fun call => call.stage.phase.holdsLock = true) = slot.locked.toNat
  /-- A counter is the number of pins at versions of its parity. -/
  pins : ∀ version, slot.pins.count version =
    calls.countP fun call => call.stage.phase.pinsLike version = true
  /-- Whoever gives up the lock finds it taken. -/
  taken : ∀ call ∈ calls, call.stage.phase.holdsLock = true → slot.locked = true
  /-- Whoever drops a pin finds it counted. -/
  counted : ∀ call ∈ calls, ∀ version, call.stage.phase.pinned? = some version →
    0 < slot.pins.count version
  /-- A pinned content is in the slot at its version, or the call that displaced it keeps it. -/
  pinned : ∀ call ∈ calls, ∀ content version,
    call.stage.phase.pinnedContent? = some (content, version) →
      (slot.content = some content ∧ slot.version = version) ∨
        version < slot.version ∧
          ∃ other ∈ calls, other.stage.phase.displaced? = some (content, version)
  /-- No two calls keep the content of one version. -/
  once : (calls.filterMap fun call => call.stage.phase.displacedAt?).Nodup
  /-- Whoever finds that the version it displaced is not pinned finds no reader of that version. -/
  drained : ∀ call ∈ calls, ∀ old version rounds,
    call.stage = .calling (.draining old version rounds) →
    slot.pins.count version = 0 → ∀ other ∈ calls, ∀ content,
      other.stage.phase.reading? ≠ some (content, version)

variable {slot : Slot} {calls : Multiset Call}

theorem countP_phases {listed : List Phase}
    (hlisted : (listed : Multiset Phase) = calls.map (·.stage.phase)) (test : Phase → Bool) :
    listed.countP test = calls.countP fun call => test call.stage.phase = true := by
  have hcount := congrArg (Multiset.countP (test · = true)) hlisted
  rw [Multiset.coe_countP, Multiset.countP_map, ← Multiset.countP_eq_card_filter] at hcount
  simpa using hcount

theorem Ruled.interlocked (hruled : slot.Ruled (calls.map (·.stage.phase)))
    (hdated : ∀ call ∈ calls, call.stage.phase.Dated slot.register)
    (honce : (calls.filterMap fun call => call.stage.phase.displacedAt?).Nodup) :
    slot.Interlocked calls := by
  obtain ⟨listed, hlisted, hsound⟩ := hruled
  have hmem : ∀ phase, phase ∈ listed ↔ ∃ call ∈ calls, call.stage.phase = phase := by
    intro phase
    rw [← Multiset.mem_coe, hlisted, Multiset.mem_map]
  have hcounted : ∀ call ∈ calls, ∀ version, call.stage.phase.pinned? = some version →
      0 < slot.pins.count version := by
    intro call hcall version hpinned
    rw [hsound.pins version]
    exact List.countP_pos_iff.mpr
      ⟨_, (hmem _).mpr ⟨call, hcall, rfl⟩, Phase.pinsLike_of_pinned hpinned⟩
  constructor
  case lock => rw [← countP_phases hlisted, hsound.lock]
  case pins => exact fun version => by rw [← countP_phases hlisted, hsound.pins]
  case taken => exact fun call hcall => hsound.locked ((hmem _).mpr ⟨call, hcall, rfl⟩)
  case counted => exact hcounted
  case pinned =>
    intro call hcall content version hpinned
    refine (hsound.pinned _ ((hmem _).mpr ⟨call, hcall, rfl⟩) content version hpinned).imp id ?_
    rintro ⟨phase, hphase, hdisplaced⟩
    obtain ⟨other, hother, rfl⟩ := (hmem phase).mp hphase
    exact ⟨(hdated other hother).displaced hdisplaced, other, hother, hdisplaced⟩
  case once => exact honce
  case drained =>
    intro call hcall old version rounds hstage hfree other hother content hreading
    have hdisplaced : version < slot.version := by
      have hearlier := hdated call hcall
      rw [hstage] at hearlier
      exact hearlier
    cases hphase : other.stage.phase with
    | pinning purpose found =>
      rw [hphase] at hreading
      obtain ⟨rfl, rfl⟩ := Prod.mk.inj (Option.some.inj hreading)
      have hcurrent := hsound.copied purpose found _ ((hmem _).mpr ⟨other, hother, hphase⟩)
      exact absurd hcurrent.2 hdisplaced.ne'
    | parting | acquiring | unpinning =>
      rw [hphase] at hreading
      obtain ⟨rfl, rfl⟩ := Prod.mk.inj (Option.some.inj hreading)
      have hshown := hcounted other hother _ (by rw [hphase]; rfl)
      exact absurd hfree hshown.ne'
    | _ =>
      rw [hphase] at hreading
      cases hreading

end Slot

variable {β : Type} [Resident β]

namespace Crew

variable {crew next : Crew β} {thread : ℕ} {name : String} {cell : Cell} {call : Call}

/-- What a step makes of the calls on a cell. -/
theorem Sound.turnover (hsound : crew.Sound) (hstep : crew.step thread = some next)
    (name : String) :
    ∃ agenda, crew.agendas[thread]? = some agenda ∧
      Frame.Turnover crew.world next.world agenda (crew.stakes.callsOn name)
        (next.stakes.callsOn name) := by
  obtain ⟨agenda, world, later, hagenda, hframe, rfl⟩ := step_eq_some hstep
  refine ⟨agenda, hagenda, ?_⟩
  obtain ⟨before, after, hplace, -, hset, -⟩ := exists_place hagenda
  have hcalls (frames : List Frame) : (stakesOf (before ++ frames :: after).flatten).calls =
      (stakesOf frames).calls + (stakesOf (before.flatten ++ after.flatten)).calls := by
    rw [List.flatten_append, List.flatten_cons, stakesOf_append, stakesOf_append, stakesOf_append,
      add_calls, add_calls, add_calls, add_left_comm]
  have hordinary := hsound.ordinary_agenda (List.mem_of_getElem? hagenda)
  have hall := ((Frame.turnover_step hordinary hframe).add
    (stakesOf (before.flatten ++ after.flatten)).calls).onCell name
  rw [← hcalls, ← hcalls, ← hplace, ← hset later] at hall
  exact hall

/-! ## Versions that were displaced -/

/-- Every call knows the version that it refers to. -/
def Dated (crew : Crew β) : Prop :=
  crew.Heeds fun register stage => stage.phase.Dated register

theorem heeded_dated : Heeded fun register stage => stage.phase.Dated register where
  opening register kind action := Phase.dated_of_idle (Stage.idle_opening kind action) register
  own _ _ _ _ _ _ _ _ _ _ hdated hstep := Stage.dated_step hdated hstep
  others _ _ new hlock hdated := hdated.after hlock new

omit [Resident β] in
theorem Dated.of_call (hdated : crew.Dated) (hcell : crew.world.cell? name = some cell)
    (hcall : call ∈ crew.stakes.callsOn name) : call.stage.phase.Dated cell.slot.register := by
  obtain ⟨rfl, thread, agenda, hagenda, hmem⟩ := exists_thread hcall
  obtain ⟨register, hregister, hcalled⟩ := hdated thread agenda call hagenda hmem
  rw [World.register?_of_cell hcell] at hregister
  obtain rfl := Option.some.inj hregister
  exact hcalled

/-- The contents that calls keep in the place of a cell belong to different versions. -/
def Once (crew : Crew β) : Prop :=
  ∀ name, ((crew.stakes.callsOn name).filterMap fun call => call.stage.phase.displacedAt?).Nodup

omit [Resident β] in
theorem start_once (programs : List (List Operation)) : (start programs : Crew β).Once := by
  intro name
  rw [stakes_start]
  exact Multiset.nodup_zero

theorem Once.step (honce : crew.Once) (hsound : crew.Sound) (hdated : crew.Dated)
    (hstep : crew.step thread = some next) : next.Once := by
  intro name
  obtain ⟨agenda, hagenda, hturnover⟩ := hsound.turnover hstep name
  have hbefore := honce name
  have hidle (call : Call) (others : Multiset Call) (hidle : call.stage.phase.Idle) :
      ((call ::ₘ others).filterMap fun call => call.stage.phase.displacedAt?) =
        others.filterMap fun call => call.stage.phase.displacedAt? := by
    refine Multiset.filterMap_cons_none call others ?_
    rw [Phase.displacedAt?, hidle.2.2, Option.map_none]
  cases hturnover with
  | same hafter => rwa [hafter]
  | begun call found hfound hopening hafter =>
    rw [hafter, hidle _ _ (hopening ▸ Stage.idle_opening found.kind call.action)]
    exact hbefore
  | ended call below outcome hplace hfinished hcalls =>
    rw [hcalls, hidle _ _ (hfinished ▸ Stage.idle_done {})] at hbefore
    exact hbefore
  | advanced call below found slot stage effect others hplace hfound hstage hslot hcalls hafter =>
    have hothers : (others.filterMap fun call => call.stage.phase.displacedAt?).Nodup := by
      rw [hcalls] at hbefore
      exact Multiset.nodup_of_le
        (Multiset.filterMap_le_filterMap _ (Multiset.le_cons_self others call)) hbefore
    rw [hafter]
    cases hlater : stage.phase.displaced? with
    | none =>
      rw [Multiset.filterMap_cons_none _ _ (by rw [Phase.displacedAt?, hlater, Option.map_none])]
      exact hothers
    | some kept =>
      obtain ⟨content, version⟩ := kept
      rw [Multiset.filterMap_cons_some _ _ _
        (by rw [Phase.displacedAt?, hlater, Option.map_some])]
      rcases Stage.step_phase hstage with hphase | ⟨-, -, hidle⟩
      · rcases Phase.displaced_of_step hphase hlater with hsame | ⟨-, -, hversion⟩
        · rw [hcalls, Multiset.filterMap_cons_some _ _ _
            (by rw [Phase.displacedAt?, hsame, Option.map_some])] at hbefore
          exact hbefore
        · refine Multiset.nodup_cons.mpr ⟨fun hmem => ?_, hothers⟩
          obtain ⟨other, hother, hdisplaced⟩ := (Multiset.mem_filterMap _ _).mp hmem
          obtain ⟨⟨old, _⟩, hold, rfl⟩ := Option.map_eq_some_iff.mp hdisplaced
          have hcall : call ∈ crew.stakes.callsOn name := hcalls ▸ Multiset.mem_cons_self _ _
          obtain rfl := (mem_callsOn.mp hcall).2
          have hearlier := (hdated.of_call hfound (hcalls ▸ Multiset.mem_cons_of_mem hother)).displaced
            hold
          exact absurd hversion hearlier.ne'
      · rw [hidle.2.2] at hlater
        cases hlater

/-! ## Counters that fall -/

/-- As long as the next version is the present one, pins are taken on the other counter. -/
theorem Sound.pins_step [Lawful β] (hsound : crew.Sound) (hdated : crew.Dated)
    (hstep : crew.step thread = some next) {later : Cell} {version : ℕ}
    (hcell : crew.world.cell? name = some cell) (hlater : next.world.cell? name = some later)
    (hversion : cell.slot.version = version + 1) :
    later.slot.pins.count version ≤ cell.slot.pins.count version := by
  have hpins {crew : Crew β} {cell : Cell} (hsound : crew.Sound)
      (hcell : crew.world.cell? name = some cell) : cell.slot.pins.count version =
        (crew.stakes.callsOn name).countP fun call => call.stage.phase.pinsLike version = true := by
    obtain ⟨listed, hlisted, hslot⟩ := (hsound.world.housed.sound name cell (mem_of_lookup hcell)).slot
    rw [hslot.pins version, Slot.countP_phases hlisted]
  have hidle {stage : Stage} (hidle : stage.phase.Idle) :
      ¬ stage.phase.pinsLike version = true := by
    rw [Phase.pinsLike, hidle.2.1]
    exact Bool.false_ne_true
  rw [hpins (hsound.step hstep) hlater, hpins hsound hcell]
  obtain ⟨agenda, -, hturnover⟩ := hsound.turnover hstep name
  cases hturnover with
  | same hafter => rw [hafter]
  | begun call found hfound hopening hafter =>
    rw [hafter, Multiset.countP_cons,
      if_neg (hidle (hopening ▸ Stage.idle_opening found.kind call.action)), add_zero]
  | ended call below outcome hplace hfinished hcalls =>
    rw [hcalls]
    exact Multiset.countP_le_of_le _ (Multiset.le_cons_self _ _)
  | advanced call below found slot stage effect others hplace hfound hstage hslot hcalls hafter =>
    have hcall : call ∈ crew.stakes.callsOn name := hcalls ▸ Multiset.mem_cons_self _ _
    obtain rfl := (mem_callsOn.mp hcall).2
    obtain rfl := Option.some.inj (hcell.symm.trans hfound)
    have hlike : stage.phase.pinsLike version = true →
        call.stage.phase.pinsLike version = true := by
      intro hafterwards
      rcases Stage.step_phase hstage with hphase | ⟨-, -, hends⟩
      · exact (hdated.of_call hcell hcall).pinsLike_of_step hversion hphase hafterwards
      · exact absurd hafterwards (hidle hends)
    rw [hcalls, hafter, Multiset.countP_cons, Multiset.countP_cons]
    refine Nat.add_le_add_left ?_ _
    by_cases hafterwards : stage.phase.pinsLike version = true
    · rw [if_pos hafterwards, if_pos (hlike hafterwards)]
    · rw [if_neg hafterwards]
      exact Nat.zero_le _

theorem Sound.pins_run [Lawful β] (hsound : crew.Sound) (hdated : crew.Dated) {later : Cell}
    {version : ℕ} {further : List ℕ} (hcell : crew.world.cell? name = some cell)
    (hlater : (crew.run further).world.cell? name = some later)
    (hversion : ∀ front back, further = front ++ back → ∃ present,
      (crew.run front).world.cell? name = some present ∧ present.slot.version = version + 1) :
    later.slot.pins.count version ≤ cell.slot.pins.count version := by
  induction further generalizing crew cell with
  | nil =>
    obtain rfl := Option.some.inj (hcell.symm.trans hlater)
    exact le_rfl
  | cons other further ih =>
    have hrest : ∀ front back, further = front ++ back → ∃ present,
        (((crew.step other).getD crew).run front).world.cell? name = some present ∧
          present.slot.version = version + 1 :=
      fun front back hsplit => hversion (other :: front) back (by rw [hsplit, List.cons_append])
    rw [Crew.run] at hlater
    cases hstep : crew.step other with
    | none =>
      rw [hstep, Option.getD_none] at hlater hrest
      exact ih hsound hdated hcell hlater hrest
    | some next =>
      rw [hstep, Option.getD_some] at hlater hrest
      obtain ⟨present, hpresent, hstill⟩ := hversion [] _ rfl
      obtain rfl := Option.some.inj (hcell.symm.trans hpresent)
      obtain ⟨between, hbetween, -⟩ := hrest [] further rfl
      exact (ih (hsound.step hstep) (hsound.heeds_step heeded_dated hdated hstep) hbetween hlater
        hrest).trans (hsound.pins_step hdated hstep hcell hbetween hstill)

/-! ## Steps that write -/

/-- Content and version of a cell are written by the call that holds its lock, unless no call is in
progress on the cell. -/
theorem Sound.written (hsound : crew.Sound) (hstep : crew.step thread = some next)
    {register later : Register} (hregister : crew.world.register? name = some register)
    (hlater : next.world.register? name = some later) (hchanged : later ≠ register) :
    (∃ call below, crew.agendas[thread]? = some (.call call :: below) ∧ call.cell = name ∧
        call.stage.phase.holdsLock = true) ∨ crew.stakes.callsOn name = 0 := by
  obtain ⟨agenda, world, after, hagenda, hframe, rfl⟩ := step_eq_some hstep
  have hordinary := hsound.ordinary_agenda (List.mem_of_getElem? hagenda)
  rcases Frame.register?_step hordinary hframe name with hsame | hwrites
  · rw [hlater, hregister] at hsame
    exact absurd (Option.some.inj hsame) hchanged
  cases hwrites with
  | stores call below hplace hname hstores =>
    obtain ⟨new, hstage⟩ := Stage.exists_storing hstores
    exact .inl ⟨call, below, hplace ▸ hagenda, hname, by rw [hstage]; rfl⟩
  | copies call below content hplace hstage haction hcopy hafter =>
    right
    by_contra hcalls
    obtain ⟨other, hother⟩ := Multiset.exists_mem_of_ne_zero hcalls
    obtain ⟨hmem, rfl⟩ := mem_callsOn.mp hother
    obtain ⟨cell, hcell, -⟩ := hsound.world.cell_of_call hmem
    have hused := hsound.world.not_idle hmem hcell
    subst hplace
    obtain ⟨⟨stepped, frames⟩, hactive, hresult⟩ := Option.map_eq_some_iff.mp hframe
    obtain ⟨rfl, rfl⟩ := Prod.mk.inj hresult
    rcases Call.step_cases hactive with
      ⟨outcome, hfinished, rfl, rfl⟩ | ⟨found, slot, stage, effect, -, hnone, -, -⟩
    · have hkept := call.register?_settle_used outcome hcell hused
      rw [hregister] at hkept
      exact hchanged (Option.some.inj (hlater.symm.trans hkept))
    · rw [hstage] at hnone
      cases hnone
  | starts op hop hrewrites =>
    rw [hlater, hregister] at hrewrites
    cases hrewrites

/-! ## All cells -/

/-- A step of a call found this register in its cell, and the call has been in a place since. -/
def Since (crew : Crew β) (schedule : List ℕ) (thread : ℕ) (call : Call) (register : Register)
    (origin place : Stage → Prop) : Prop :=
  ∃ early late below stage, schedule = early ++ thread :: late ∧ origin stage ∧
    (crew.run early).agendas[thread]? = some (.call { call with stage } :: below) ∧
    (crew.run early).world.register? call.cell = some register ∧
    ∀ front back, late = front ++ back →
      (crew.run (early ++ thread :: front)).Has thread call place

/-- How calls go about lock and pins of their cells, at the end of a schedule. -/
structure Interlocked (crew : Crew β) (schedule : List ℕ) : Prop where
  cells : ∀ name cell, (crew.run schedule).world.cell? name = some cell →
    cell.slot.Interlocked ((crew.run schedule).stakes.callsOn name)
  /-- Whatever content and version are, a call that does not hold the lock does the same and leaves
  them as they are. -/
  unread : ∀ call ∈ (crew.run schedule).stakes.calls, call.stage.phase.holdsLock = false →
    ∀ kind guard facts shape (slot : Slot) content version,
      call.stage.step kind guard call.action facts shape { slot with content, version } =
        (call.stage.step kind guard call.action facts shape slot).map fun (next, later, effect) =>
          ({ next with content, version }, later, effect)
  /-- Only the call that holds the lock writes content and version, as long as there are calls. -/
  written : ∀ thread next name register later, (crew.run schedule).step thread = some next →
    (crew.run schedule).world.register? name = some register →
    next.world.register? name = some later → later ≠ register →
      (∃ call below, (crew.run schedule).agendas[thread]? = some (.call call :: below) ∧
        call.cell = name ∧ call.stage.phase.holdsLock = true) ∨
          (crew.run schedule).stakes.callsOn name = 0
  /-- A pin was taken when its content was the content at its version. -/
  pinned : ∀ (thread : ℕ) agenda call content version,
    (crew.run schedule).agendas[thread]? = some agenda → .call call ∈ agenda →
    call.stage.phase.pinnedContent? = some (content, version) →
      crew.Since schedule thread call { content := some content, version }
        (fun stage => ∃ purpose, stage = .calling (.pinning purpose content version))
        fun stage => stage.phase.pinnedContent? = some (content, version)
  /-- What a call keeps was the content until the call stored another one. -/
  displaced : ∀ (thread : ℕ) agenda call content version,
    (crew.run schedule).agendas[thread]? = some agenda → .call call ∈ agenda →
    call.stage.phase.displaced? = some (content, version) →
      crew.Since schedule thread call { content := some content, version }
        (fun stage => ∃ new, stage = .calling (.storing new))
        fun stage => stage.phase.displaced? = some (content, version)
  /-- A wait for the pins on a version ends when no call reads the content of that version. -/
  drained : ∀ (thread : ℕ) next call below old version rounds,
    (crew.run schedule).agendas[thread]? = some (.call call :: below) →
    call.stage = .calling (.draining old version rounds) →
    (crew.run schedule).proceed thread = some next →
      ∀ other ∈ (crew.run schedule).stakes.callsOn call.cell, ∀ content,
        other.stage.phase.reading? ≠ some (content, version)
  /-- While the version after the displaced one is the present one, its counter never rises. -/
  falling : ∀ further name cell later version,
    (crew.run schedule).world.cell? name = some cell →
    (crew.run (schedule ++ further)).world.cell? name = some later →
    (∀ front back, further = front ++ back → ∃ present,
      (crew.run (schedule ++ front)).world.cell? name = some present ∧
        present.slot.version = version + 1) →
      later.slot.pins.count version ≤ cell.slot.pins.count version

variable [Lawful β] {programs : List (List Operation)}

theorem run_dated (hordinary : ∀ ops ∈ programs, Operation.ordinaryAll ops = true)
    (schedule : List ℕ) : ((start programs : Crew β).run schedule).Dated :=
  (start_sound hordinary : (start programs : Crew β).Sound).heeds heeded_dated
    (start_heeds programs _) schedule

theorem run_once (hordinary : ∀ ops ∈ programs, Operation.ordinaryAll ops = true)
    (schedule : List ℕ) : ((start programs : Crew β).run schedule).Once := by
  have hboth : ((start programs : Crew β).run schedule).Dated ∧
      ((start programs : Crew β).run schedule).Once := by
    refine (start_sound hordinary).run_keeps (fun crew => crew.Dated ∧ crew.Once) ?_
      ⟨start_heeds programs _, start_once programs⟩ schedule
    rintro crew thread next hsound ⟨hdated, honce⟩ hstep
    exact ⟨hsound.heeds_step heeded_dated hdated hstep, honce.step hsound hdated hstep⟩
  exact hboth.2

/-- The step that took a call to a place can be told from the place. -/
theorem run_since (hordinary : ∀ ops ∈ programs, Operation.ordinaryAll ops = true)
    {schedule : List ℕ} {agenda : List Frame} {register : Register} {origin place : Stage → Prop}
    (hidle : ∀ stage : Stage, stage.phase.Idle → ¬ place stage)
    (horigin : ∀ stage later slot next effect, stage.phase.step slot = some (next, later, effect) →
      ∀ arrived : Stage, arrived.phase = later → place arrived → ¬ place stage →
        stage.phase.Dated slot.register → origin stage ∧ slot.register = register)
    (hagenda : ((start programs : Crew β).run schedule).agendas[thread]? = some agenda)
    (hcall : .call call ∈ agenda) (hplace : place call.stage) :
    (start programs : Crew β).Since schedule thread call register origin place := by
  obtain ⟨early, late, below, stage, cell, slot, later, effect, hschedule, htop, hcell, hstep,
    hbefore, hafter, hsince⟩ := run_arrived hordinary
      (fun kind action => hidle _ (Stage.idle_opening kind action)) schedule hagenda hcall hplace
  rcases Stage.step_phase hstep with hphase | ⟨-, -, hends⟩
  · obtain ⟨found, hfound, hdated⟩ :=
      run_dated hordinary early thread _ { call with stage } htop List.mem_cons_self
    have hpresent := World.register?_of_cell hcell
    obtain rfl := Option.some.inj (hpresent.symm.trans hfound)
    obtain ⟨hfrom, hregister⟩ := horigin stage _ _ _ _ hphase later rfl hafter hbefore hdated
    exact ⟨early, late, below, stage, hschedule, hfrom, htop, hregister ▸ hpresent, hsince⟩
  · exact absurd hafter (hidle later hends)

/-- However threads that perform ordinary operations interleave, lock and pins of every cell are in
step with the calls on it. -/
theorem run_interlocked (hordinary : ∀ ops ∈ programs, Operation.ordinaryAll ops = true)
    (schedule : List ℕ) : (start programs : Crew β).Interlocked schedule := by
  have hsound := (start_sound hordinary : (start programs : Crew β).Sound).run schedule
  have hdated : ((start programs : Crew β).run schedule).Dated := run_dated hordinary schedule
  have hcells : ∀ name cell, ((start programs : Crew β).run schedule).world.cell? name = some cell →
      cell.slot.Interlocked (((start programs : Crew β).run schedule).stakes.callsOn name) :=
    fun name cell hcell => (hsound.world.housed.sound name cell (mem_of_lookup hcell)).slot.interlocked
      (fun call hcall => hdated.of_call hcell hcall) (run_once hordinary schedule name)
  constructor
  case cells => exact hcells
  case unread =>
    intro call hcall hlock kind guard facts shape slot content version
    exact Stage.step_unlocked hlock slot content version
  case written =>
    exact fun thread next name register later hstep hregister hlater hchanged =>
      hsound.written hstep hregister hlater hchanged
  case pinned =>
    intro thread agenda call content version hagenda hcall hpinned
    refine run_since hordinary (fun stage hidle heq => ?_) ?_ hagenda hcall hpinned
    · have hlike := Phase.pinsLike_of_pinnedContent heq
      rw [Phase.pinsLike, hidle.2.1] at hlike
      cases hlike
    · intro stage later slot next effect hphase arrived hlater hplace hbefore hdated
      subst hlater
      rcases Phase.pinned_of_step hphase hplace with hearlier | ⟨purpose, hstage⟩
      · exact absurd hearlier hbefore
      · rw [hstage] at hdated
        exact ⟨⟨purpose, Stage.eq_calling hstage fun _ hdone => by cases hdone⟩, hdated⟩
  case displaced =>
    intro thread agenda call content version hagenda hcall hdisplaced
    refine run_since hordinary (fun stage hidle heq => ?_) ?_ hagenda hcall hdisplaced
    · rw [hidle.2.2] at heq
      cases heq
    · intro stage later slot next effect hphase arrived hlater hplace hbefore hdated
      subst hlater
      rcases Phase.displaced_of_step hphase hplace with hearlier |
        ⟨⟨new, hstage⟩, hcontent, hversion⟩
      · exact absurd hearlier hbefore
      · refine ⟨⟨new, Stage.eq_calling hstage fun _ hdone => by cases hdone⟩, ?_⟩
        rw [Slot.register, hcontent, hversion]
  case drained =>
    intro thread next call below old version rounds hagenda hstage hproceed other hother content
    obtain ⟨cell, hcell, -⟩ := hsound.cell_of_call hagenda List.mem_cons_self
    have hcall : call ∈ ((start programs : Crew β).run schedule).stakes.callsOn call.cell :=
      mem_callsOn.mpr ⟨mem_calls_of_mem (List.mem_flatten.mpr
        ⟨_, List.mem_of_getElem? hagenda, List.mem_cons_self⟩), rfl⟩
    refine (hcells call.cell cell hcell).drained call hcall old version rounds hstage ?_ other
      hother content
    by_contra hpinned
    have hnone : ((start programs : Crew β).run schedule).proceed thread = none := by
      refine (proceed_eq_none hagenda).mpr (.inl ?_)
      simp [Frame.polls, Call.polls, Stage.polls, hstage, hcell, Phase.polls, hpinned]
    rw [hnone] at hproceed
    cases hproceed
  case falling =>
    intro further name cell later version hcell hlater hversion
    rw [run_append] at hlater
    refine hsound.pins_run hdated hcell hlater fun front back hsplit => ?_
    rw [← run_append]
    exact hversion front back hsplit

/-- The first thread waits for the pin of the second one, and has looked at it often. -/
theorem run_interlocked_overtaken : (∀ ops ∈ reclaiming, Operation.ordinaryAll ops = true) ∧
    (((start reclaiming : Crew Staged).run (overtaken.take 29)).callAt? 0 1).map (·.stage) =
      some (.calling (.draining 0 0 12)) ∧
    (((start reclaiming : Crew Staged).run (overtaken.take 29)).callAt? 1 1).map (·.stage) =
      some (.calling (.acquiring (.read 0) 0 0)) ∧
    (start reclaiming : Crew Staged).Interlocked (overtaken.take 29) :=
  ⟨by decide, by decide +kernel, by decide +kernel, run_interlocked (by decide) (overtaken.take 29)⟩

end Crew

end SharedCell
