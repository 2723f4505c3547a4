import Mathlib
import SharedCell.Proofs.Crew.Records
import SharedCell.Proofs.Slot.ReadRounds

/-!
# Reads beside replacements

A read ends, whatever others store meanwhile: every round that it starts anew is paid for by a
replacement, and once nothing is replaced any more it starts anew at most once.  The object that it
yields was the content at every moment from the last look at the content to the look at the version,
and if it yields none the cell was empty at the last look.  The unit of a round that is started anew
is given back once, so that the object that is yielded has one unit more in the end, and no other
object has any.
-/

namespace SharedCell

namespace Moment

/-- A read looks at content and version. -/
def Snaps (moment : Moment) : Prop :=
  moment.own = true ∧ ∃ attempt, moment.stage = .calling (.copying (.read attempt))

/-- A read that has a unit looks at the version again. -/
def Checks (moment : Moment) (unit : ObjectId) (version : ℕ) : Prop :=
  moment.own = true ∧
    ∃ attempt, moment.stage = .calling (.copying (.recheck unit version attempt))

/-- How often a call has reported that it starts anew. -/
def restarts (moments : List Moment) : ℕ :=
  (effects moments).countP Effect.restarts

/-- Since a read looked at the content, it has been the content as long as the version has been the
same. -/
def Unchanged (moments : List Moment) (register : Register) (unit : ObjectId) (version : ℕ) : Prop :=
  ∃ before snap between, moments = before ++ snap :: between ∧ snap.Snaps ∧
    (∀ moment ∈ snap :: between, moment.register.Current unit version ∧
      moment.register.version ≤ register.version) ∧
    register.Current unit version

/-- An object was the content, at one and the same version, at every moment from a look at the
content to the look at the version that followed. -/
def Confirmed (moments : List Moment) (unit : ObjectId) : Prop :=
  ∃ version before snap between check after,
    moments = before ++ snap :: (between ++ check :: after) ∧ snap.Snaps ∧
    check.Checks unit version ∧
    ∀ moment ∈ snap :: (between ++ [check]), moment.register = { content := some unit, version }

/-- The cell was empty at the last look at the content. -/
def Emptied (moments : List Moment) : Prop :=
  ∃ before snap after, moments = before ++ snap :: after ∧ snap.Snaps ∧
    snap.register.content = none ∧ ∀ moment ∈ after, ¬ moment.Snaps

/-- Replacements pay for rounds, also from any moment on, and there is still so much to be paid. -/
structure Budgeted (moments : List Moment) (overdue work : ℕ) : Prop where
  restarts : restarts moments + overdue ≤ replacements moments
  turns : turns moments + work ≤ 9 + 11 * replacements moments
  late : ∀ front back, moments = front ++ back →
    Moment.restarts back + overdue ≤ replacements back + 1 ∧
      Moment.turns back + work ≤ 18 + 11 * replacements back

variable {moments : List Moment} {moment : Moment} {register later : Register} {unit : ObjectId}
  {version : ℕ}

/-- A question is no retry. -/
theorem countP_restarts_filter (effects : List Effect) :
    (effects.filter (!·.asks)).countP Effect.restarts = effects.countP Effect.restarts := by
  rw [List.countP_filter]
  refine List.countP_congr fun effect _ => ?_
  cases effect <;> simp [Effect.restarts, Effect.asks]

theorem restarts_append (first second : List Moment) :
    restarts (first ++ second) = restarts first + restarts second := by
  rw [restarts, effects_append, List.countP_append, restarts, restarts]

theorem budgeted_start : Budgeted [] 0 9 where
  restarts := le_rfl
  turns := le_rfl
  late front back hsplit := by
    obtain ⟨-, rfl⟩ := List.append_eq_nil_iff.mp hsplit.symm
    exact ⟨Nat.zero_le _, by simp [Moment.turns, replacements]⟩

theorem Budgeted.concat {overdue work overdue' work' : ℕ} (hbudgeted : Budgeted moments overdue work)
    (hrestarts : Moment.restarts [moment] + overdue' ≤ replacements [moment] + overdue)
    (hturns : Moment.turns [moment] + work' ≤ 11 * replacements [moment] + work)
    (hoverdue : overdue' ≤ 1) (hwork : work' ≤ 18) :
    Budgeted (moments ++ [moment]) overdue' work' where
  restarts := by
    have := hbudgeted.restarts
    rw [restarts_append, replacements_append]
    omega
  turns := by
    have := hbudgeted.turns
    rw [turns_append, replacements_append]
    omega
  late front back hsplit := by
    rcases List.eq_nil_or_concat back with rfl | ⟨rest, last, rfl⟩
    · refine ⟨?_, ?_⟩
      · simpa [Moment.restarts, effects, effectsOf, replacements] using hoverdue
      · simpa [Moment.turns, replacements] using hwork
    · rw [List.concat_eq_append, ← List.append_assoc] at hsplit
      obtain ⟨hfront, hlast⟩ := List.append_inj' hsplit rfl
      obtain rfl := List.singleton_inj.mp hlast
      obtain ⟨hearlier, hbefore⟩ := hbudgeted.late front rest hfront
      rw [List.concat_eq_append, restarts_append, turns_append, replacements_append]
      omega

theorem Budgeted.mono {overdue work overdue' work' : ℕ} (hbudgeted : Budgeted moments overdue work)
    (hoverdue : overdue' ≤ overdue) (hwork : work' ≤ work) : Budgeted moments overdue' work' where
  restarts := le_trans (Nat.add_le_add_left hoverdue _) hbudgeted.restarts
  turns := le_trans (Nat.add_le_add_left hwork _) hbudgeted.turns
  late front back hsplit :=
    ⟨le_trans (Nat.add_le_add_left hoverdue _) (hbudgeted.late front back hsplit).1,
      le_trans (Nat.add_le_add_left hwork _) (hbudgeted.late front back hsplit).2⟩

theorem unchanged_snap {moment : Moment} (hsnap : moment.Snaps)
    (hcurrent : moment.register.Current unit version) (before : List Moment) :
    Unchanged (before ++ [moment]) moment.register unit version := by
  refine ⟨before, moment, [], rfl, hsnap, ?_, hcurrent⟩
  intro other hother
  obtain rfl := List.mem_singleton.mp hother
  exact ⟨hcurrent, le_rfl⟩

theorem Unchanged.current (hunchanged : Unchanged moments register unit version) :
    register.Current unit version := by
  obtain ⟨_, _, _, -, -, -, hcurrent⟩ := hunchanged
  exact hcurrent

theorem Unchanged.concat (hunchanged : Unchanged moments register unit version) (stage : Stage)
    (own waits : Bool) (hle : register.version ≤ later.version)
    (hcurrent : later.Current unit version) :
    Unchanged (moments ++ [⟨stage, own, waits, register, later⟩]) later unit version := by
  obtain ⟨before, snap, between, rfl, hsnap, hbetween, hpresent⟩ := hunchanged
  refine ⟨before, snap, between ++ [⟨stage, own, waits, register, later⟩], by simp, hsnap, ?_,
    hcurrent⟩
  rw [← List.cons_append]
  refine List.forall_mem_append.mpr ⟨fun other hother => ?_, ?_⟩
  · obtain ⟨hother, hversion⟩ := hbetween other hother
    exact ⟨hother, hversion.trans hle⟩
  · exact List.forall_mem_singleton.mpr ⟨hpresent, hle⟩

/-- The version is still that of the content that was found. -/
theorem Unchanged.confirmed (hunchanged : Unchanged moments register unit version)
    {moment : Moment} (hcheck : moment.Checks unit version) (hregister : moment.register = register)
    (hsame : register.version = version) : Confirmed (moments ++ [moment]) unit := by
  obtain ⟨before, snap, between, rfl, hsnap, hbetween, hpresent⟩ := hunchanged
  refine ⟨version, before, snap, between, moment, [], by simp, hsnap, hcheck, ?_⟩
  have hfixed {other : Register} (hcurrent : other.Current unit version)
      (hle : other.version ≤ version) : other = { content := some unit, version } := by
    have hversion := le_antisymm hcurrent.1 hle
    obtain ⟨content, found⟩ := other
    obtain rfl : version = found := hversion
    exact congrArg (Register.mk · version) (hcurrent.2 rfl)
  rw [← List.cons_append]
  refine List.forall_mem_append.mpr ⟨fun other hother => ?_, ?_⟩
  · obtain ⟨hother, hle⟩ := hbetween other hother
    exact hfixed hother (hle.trans hsame.le)
  · exact List.forall_mem_singleton.mpr (hregister.trans (hfixed hpresent hsame.le))

theorem Confirmed.concat (hconfirmed : Confirmed moments unit) (moment : Moment) :
    Confirmed (moments ++ [moment]) unit := by
  obtain ⟨version, before, snap, between, check, after, rfl, hrest⟩ := hconfirmed
  exact ⟨version, before, snap, between, check, after ++ [moment], by simp, hrest⟩

theorem Emptied.concat (hemptied : Emptied moments) (hmoment : ¬ moment.Snaps) :
    Emptied (moments ++ [moment]) := by
  obtain ⟨before, snap, after, rfl, hsnap, hnone, hafter⟩ := hemptied
  exact ⟨before, snap, after ++ [moment], by simp, hsnap, hnone,
    List.forall_mem_append.mpr ⟨hafter, List.forall_mem_singleton.mpr hmoment⟩⟩

end Moment

open Moment

namespace Phase

/-- What a read knows of the content at all moments since it has looked at it. -/
def Seen (moments : List Moment) (register : Register) : Phase → Prop
  | .pinning _ unit version | .parting _ unit version | .acquiring _ unit version
  | .unpinning _ unit version | .locking (.recheck unit version _)
  | .copying (.recheck unit version _) => Unchanged moments register unit version
  | .comparing unit version _ current => current = version → Confirmed moments unit
  | .leaving result | .done result =>
      match result.unit with
      | some unit => Confirmed moments unit
      | none => Emptied moments
  | _ => True

variable {slot next : Slot} {phase later : Phase} {effect : Option Effect} {register : Register}
  {moments : List Moment} {laps : List Lap} {low : ℕ} {effects : List Effect}

theorem Seen.step (hseen : phase.Seen moments slot.register)
    (hlapped : phase.Lapped low laps slot.register effects)
    (hstep : phase.step slot = some (next, later, effect)) (waits : Bool) :
    later.Seen (moments ++ [{
      stage := .calling phase
      own := true
      waits
      register := slot.register
      later := next.register }]) next.register := by
  cases move_of_step hstep with
  | lock errand =>
    cases errand with
    | read => trivial
    | recheck => exact Unchanged.concat hseen _ _ _ le_rfl (Unchanged.current hseen)
    | _ => exact hlapped.elim
  | copy errand =>
    cases errand with
    | read attempt =>
      have hsnap : Snaps ⟨.calling (.copying (.read attempt)), true, waits,
        slot.register, slot.register⟩ := ⟨rfl, attempt, rfl⟩
      cases hcontent : slot.content with
      | none =>
        simp only [copied, hcontent]
        exact ⟨moments, _, [], rfl, hsnap, hcontent, by simp⟩
      | some content =>
        simp only [copied, hcontent]
        exact unchanged_snap hsnap ⟨le_rfl, fun _ => hcontent⟩ moments
    | recheck unit version attempt =>
      intro hsame
      exact Unchanged.confirmed hseen ⟨rfl, attempt, rfl⟩ rfl hsame
    | _ => exact hlapped.elim
  | pin | part | acquire =>
    exact Unchanged.concat hseen _ _ _ le_rfl (Unchanged.current hseen)
  | unpin purpose =>
    cases purpose with
    | read => exact Unchanged.concat hseen _ _ _ le_rfl (Unchanged.current hseen)
    | _ => exact hlapped.elim
  | confirm => exact (hseen rfl).concat _
  | leave result =>
    cases hunit : result.unit with
    | none =>
      simp only [Seen, hunit] at hseen ⊢
      refine hseen.concat ?_
      rintro ⟨-, attempt, hstage⟩
      cases hstage
    | some unit =>
      simp only [Seen, hunit] at hseen ⊢
      exact hseen.concat _
  | outdate | report | discard => trivial
  | acquireNew | store | depart | displace | poll | drain | emerge | note => exact hlapped.elim

theorem Seen.turn {turned : Register} (hseen : phase.Seen moments register)
    (hturns : register.Turns phase.holdsLock turned) (stage : Stage) :
    phase.Seen (moments ++ [{ stage, own := false, waits := false, register, later := turned }])
      turned := by
  have hunchanged {unit : ObjectId} {version : ℕ}
      (hunchanged : Unchanged moments register unit version) :
      Unchanged (moments ++ [{ stage, own := false, waits := false, register, later := turned }])
        turned unit version := by
    have hcurrent := hunchanged.current
    rcases hturns with rfl | ⟨-, new, rfl⟩
    · exact hunchanged.concat stage false false le_rfl hcurrent
    · exact hunchanged.concat stage false false (Nat.le_succ _) (hcurrent.after (some new))
  cases phase with
  | locking errand | copying errand =>
    cases errand with
    | recheck => exact hunchanged hseen
    | _ => trivial
  | pinning | parting | acquiring | unpinning => exact hunchanged hseen
  | comparing => exact fun hsame => (hseen hsame).concat _
  | leaving result | done result =>
    cases hunit : result.unit with
    | none =>
      simp only [Seen, hunit] at hseen ⊢
      refine hseen.concat ?_
      rintro ⟨hown, -⟩
      cases hown
    | some unit =>
      simp only [Seen, hunit] at hseen ⊢
      exact hseen.concat _
  | _ => trivial

/-- How far a read has come, and what has happened since its first step. -/
structure Reading (start register : Register) (moments : List Moment) (phase : Phase) : Prop where
  laps : ∃ laps, phase.Lapped start.version laps register (Moment.effects moments)
  version : register.version = start.version + replacements moments
  unasked : (Moment.effects moments).filter (!·.asks) = Moment.effects moments
  seen : phase.Seen moments register
  budgeted : Budgeted moments (phase.overdue register) (phase.ahead + 11 * phase.overdue register)

variable {start : Register}

theorem reading_locking (start : Register) : (locking (.read 0)).Reading start start [] where
  laps := ⟨[], lapped_locking start⟩
  version := rfl
  unasked := rfl
  seen := trivial
  budgeted := budgeted_start

/-- A call on a slot asks no guard. -/
theorem unasked_step (hstep : phase.step slot = some (next, later, effect)) :
    effect.toList.filter (!·.asks) = effect.toList := by
  cases move_of_step hstep <;> rfl

theorem Lapped.not_stores (hlapped : phase.Lapped low laps register effects) :
    phase.stores = false := by
  cases phase with
  | storing => exact hlapped.elim
  | _ => rfl

/-- A read that has not ended has something to do. -/
theorem Lapped.work_pos (hlapped : phase.Lapped low laps register effects)
    (hunder : ∀ result, phase ≠ .done result) :
    1 ≤ phase.ahead + 11 * phase.overdue register := by
  cases phase with
  | done result => exact absurd rfl (hunder result)
  | locking errand | copying errand =>
    cases errand with
    | read | recheck =>
      simp only [ahead]
      omega
    | _ => exact hlapped.elim
  | reporting => exact Nat.le_add_left 1 10
  | acquiringNew | storing | departing | draining | noting => exact hlapped.elim
  | _ =>
    simp only [ahead]
    omega

theorem Reading.step (hreading : phase.Reading start slot.register moments)
    (hstep : phase.step slot = some (next, later, effect)) (waits : Bool) :
    later.Reading start next.register (moments ++ [{
      stage := .calling phase
      own := true
      waits
      register := slot.register
      later := next.register }]) := by
  obtain ⟨laps, hlapped⟩ := hreading.laps
  obtain ⟨after, hafter⟩ := hlapped.step hstep
  have hsame : next.register = slot.register := Phase.register_step hstep hlapped.not_stores
  have heffects : Moment.effects [⟨.calling phase, true, waits, slot.register, next.register⟩] =
      effect.toList := by
    rw [effects_own, effect_step hstep]
    rfl
  have hreplacements : replacements
      [⟨.calling phase, true, waits, slot.register, next.register⟩] = 0 := by
    simp [replacements, replaces, hsame]
  constructor
  case laps => exact ⟨after, by rwa [effects_append, heffects]⟩
  case version => rw [replacements_append, hreplacements, add_zero, hsame, hreading.version]
  case unasked =>
    rw [effects_append, heffects, List.filter_append, hreading.unasked, unasked_step hstep]
  case seen => exact hreading.seen.step hlapped hstep waits
  case budgeted =>
    refine hreading.budgeted.concat ?_ ?_ (overdue_le later _) (work_le later _)
    · rw [Moment.restarts, heffects, hreplacements, zero_add]
      exact overdue_step hstep
    · have hwork := hlapped.work_step hstep
      have hturn : turns [⟨.calling phase, true, waits, slot.register, next.register⟩] = 1 := rfl
      omega

theorem Reading.turn {turned : Register} (hreading : phase.Reading start register moments)
    (hturns : register.Turns phase.holdsLock turned) (stage : Stage) :
    phase.Reading start turned
      (moments ++ [{ stage, own := false, waits := false, register, later := turned }]) := by
  obtain ⟨laps, hlapped⟩ := hreading.laps
  have hversion : turned.version =
      register.version + replacements [⟨stage, false, false, register, turned⟩] := by
    rcases hturns with rfl | ⟨-, new, rfl⟩
    · simp [replacements, replaces]
    · have hne : register.after (some new) ≠ register := by
        intro heq
        exact Nat.succ_ne_self register.version (congrArg Register.version heq)
      have hreplaces : replaces ⟨stage, false, false, register, register.after (some new)⟩ = true :=
        decide_eq_true hne
      rw [replacements, List.countP_singleton, if_pos hreplaces]
      rfl
  have hoverdue : phase.overdue turned ≤
      replacements [⟨stage, false, false, register, turned⟩] + phase.overdue register := by
    rcases hturns with rfl | ⟨-, new, rfl⟩
    · exact Nat.le_add_left _ _
    · have hone : (register.after (some new)).version = register.version + 1 := rfl
      have := phase.overdue_le (register.after (some new))
      omega
  constructor
  case laps =>
    refine ⟨laps, ?_⟩
    rw [effects_append, effects_other, List.append_nil]
    rcases hturns with rfl | ⟨-, new, rfl⟩
    · exact hlapped
    · exact hlapped.after new
  case version => rw [hversion, hreading.version, replacements_append, add_assoc]
  case unasked =>
    rw [effects_append, effects_other, List.append_nil]
    exact hreading.unasked
  case seen => exact hreading.seen.turn hturns stage
  case budgeted =>
    have hidle : Moment.restarts [⟨stage, false, false, register, turned⟩] = 0 := rfl
    have hturn : turns [⟨stage, false, false, register, turned⟩] = 0 := rfl
    refine hreading.budgeted.concat ?_ ?_ (phase.overdue_le turned) (phase.work_le turned)
    · omega
    · omega

end Phase

namespace Crew

variable {β : Type} [Resident β] {crew : Crew β}

/-- Replacements pay for the retries that a read logs and for the steps that it makes, also from any
moment on, and there is still so much to be paid. -/
structure Paced (crew : Crew β) (thread depth : ℕ) (schedule : List ℕ) (work : ℕ) : Prop where
  retries : (crew.logging thread depth schedule).countP Effect.restarts ≤
    replacements (crew.moments thread depth schedule)
  turns : turns (crew.moments thread depth schedule) + work ≤
    9 + 11 * replacements (crew.moments thread depth schedule)
  /-- Once nothing is replaced any more, the read starts anew at most once. -/
  late : ∀ early late, schedule = early ++ late →
    ((crew.run early).logging thread depth late).countP Effect.restarts ≤
        replacements ((crew.run early).moments thread depth late) + 1 ∧
      Moment.turns ((crew.run early).moments thread depth late) + work ≤
        18 + 11 * replacements ((crew.run early).moments thread depth late)

/-- How a read has ended whose cell had a first register at its first step. -/
structure Returned (crew : Crew β) (thread depth : ℕ) (start : Register) (schedule : List ℕ)
    (result : Yield) : Prop where
  /-- The log tells of rounds that started anew, each of them after a replacement, and of one in
  which a unit was acquired or the cell was empty. -/
  laps : ∃ laps, crew.logging thread depth schedule =
      Lap.effects 0 laps ++ result.unit.toList.map .acquire ∧
    Lap.Climb start.version laps
      (start.version + replacements (crew.moments thread depth schedule)) ∧
    laps.length ≤ replacements (crew.moments thread depth schedule)
  /-- The object that is yielded counts a unit more, unless it is permanent, and all others count as
  many as if the read had not been. -/
  net : ∀ obj, crew.drift thread depth schedule obj =
    if ((crew.run schedule).world.facts obj).permanent then 0
    else (result.unit.toList.count obj : ℤ)
  /-- The object that is yielded was the content all the time. -/
  found : ∀ unit, result.unit = some unit → Confirmed (crew.moments thread depth schedule) unit
  empty : result.unit = none → Emptied (crew.moments thread depth schedule)

/-- However a schedule goes on from the first step of a read, the read is under way at its end, and
replacements have paid for the rounds that it has logged so far; or it has ended before. -/
def Reads (crew : Crew β) (thread : ℕ) (call : Call) (below : List Frame) (start : Register)
    (schedule : List ℕ) : Prop :=
  (∃ above phase register,
    (crew.run schedule).agendas[thread]? =
      some (above ++ .call { call with stage := .calling phase } :: below) ∧
    (crew.run schedule).world.register? call.cell = some register ∧
    (∀ result, phase ≠ .done result) ∧
    (∃ laps, phase.Lapped start.version laps register
      (crew.logging thread below.length schedule)) ∧
    crew.Paced thread below.length schedule 1) ∨
  ∃ early late above result, schedule = early ++ late ∧
    (crew.run early).agendas[thread]? =
      some (above ++ .call { call with stage := .calling (.done result) } :: below) ∧
    crew.Paced thread below.length early 0 ∧
    crew.Returned thread below.length start early result

/-- Whatever others do, every read of a crew is paid for by replacements, and what it yields was the
content. -/
def Attentive (crew : Crew β) : Prop :=
  ∀ (thread : ℕ) call below, crew.agendas[thread]? = some (.call call :: below) →
    call.stage = .calling (.locking (.read 0)) →
      ∃ start, crew.world.register? call.cell = some start ∧
        ∀ schedule, crew.Reads thread call below start schedule

/-- A read and its record, as long as the slot is not done with it. -/
def Reading (start register : Register) (moments : List Moment) (stage : Stage) : Prop :=
  ∃ phase, stage = .calling phase ∧ phase.Reading start register moments

/-- The slot is done with a call. -/
def Served (stage : Stage) : Prop :=
  ∀ phase, stage = .calling phase → ∃ result, phase = .done result

theorem sustained_reading (action : Action) (start : Register) :
    Sustained action Served (Reading start) where
  finished _ _ hstage := by cases hstage
  own kind guard facts shape slot next stage later effect record hserved hreading hstep := by
    obtain ⟨phase, rfl, hphase⟩ := hreading
    rcases Stage.step_calling hstep with ⟨result, rfl, -⟩ | ⟨after, hafter, rfl⟩
    · exact absurd (fun _ heq => ⟨result, (Stage.calling.inj heq).symm⟩) hserved
    · exact ⟨after, rfl, hphase.step hafter _⟩
  others register turned record stage hserved hturns hreading := by
    obtain ⟨phase, rfl, hphase⟩ := hreading
    exact ⟨phase, rfl, hphase.turn hturns _⟩

variable [Lawful β] {thread depth work : ℕ} {schedule : List ℕ} {phase : Phase}
  {origin register : Register}

/-- All that a read does is logged. -/
theorem Sound.logging_reading (hsound : crew.Sound) (htraced : crew.world.traced = true)
    (hreading : phase.Reading origin register (crew.moments thread depth schedule)) :
    crew.logging thread depth schedule = Moment.effects (crew.moments thread depth schedule) := by
  rw [hsound.logging_eq htraced, hreading.unasked]

theorem Sound.paced (hsound : crew.Sound) (htraced : crew.world.traced = true) {overdue : ℕ}
    (hbudgeted : Budgeted (crew.moments thread depth schedule) overdue work) :
    crew.Paced thread depth schedule work where
  retries := by
    have hretries := hbudgeted.restarts
    rw [hsound.logging_eq htraced, countP_restarts_filter]
    exact le_of_add_le_left hretries
  turns := hbudgeted.turns
  late early late hsplit := by
    subst hsplit
    obtain ⟨hretries, hturns⟩ := hbudgeted.late _ _ (moments_append thread depth crew early late)
    rw [(hsound.run early).logging_eq (hsound.traced_run htraced early), countP_restarts_filter]
    exact ⟨le_of_add_le_left hretries, hturns⟩

theorem Sound.returned (hsound : crew.Sound) (htraced : crew.world.traced = true) {result : Yield}
    (hreading : (Phase.done result).Reading origin register (crew.moments thread depth schedule)) :
    crew.Returned thread depth origin schedule result := by
  obtain ⟨laps, -, heffects, hclimb⟩ := hreading.laps
  rw [hreading.version] at hclimb
  have hseen := hreading.seen
  constructor
  case laps =>
    have := hclimb.length_le
    rw [hsound.logging_reading htraced hreading]
    exact ⟨laps, heffects, hclimb, by omega⟩
  case net =>
    intro obj
    have hlaps : Effect.net (Lap.effects 0 laps) obj = 0 := by
      rw [Effect.net, Lap.count_effects, sub_self]
    have hunits : Effect.net (result.unit.toList.map .acquire) obj =
        result.unit.toList.count obj := by
      cases result.unit with
      | none => rfl
      | some unit => by_cases hsame : unit = obj <;> simp [Effect.net, hsame]
    rw [hsound.drift_eq, heffects, Effect.net_append, hlaps, zero_add, hunits]
  case found =>
    intro unit hunit
    simpa only [Phase.Seen, hunit] using hseen
  case empty =>
    intro hunit
    simpa only [Phase.Seen, hunit] using hseen

theorem Sound.attentive (hsound : crew.Sound) (htraced : crew.world.traced = true) :
    crew.Attentive := by
  intro thread call below hagenda hstage
  obtain ⟨cell, hcell, -⟩ := hsound.cell_of_call hagenda List.mem_cons_self
  have hregister := World.register?_of_cell hcell
  refine ⟨cell.slot.register, hregister, fun schedule => ?_⟩
  have hat : crew.At (Reading cell.slot.register) thread call below [] :=
    ⟨[], call.stage, cell.slot.register, hagenda, hregister, _, hstage, Phase.reading_locking _⟩
  rcases hsound.sustained (sustained_reading call.action cell.slot.register) hat schedule with
    ⟨above, stage, register, hlater, hfound, ⟨phase, rfl, hreading⟩, hserved⟩ |
    ⟨early, late, rfl, above, stage, register, hlater, hfound, ⟨phase, rfl, hreading⟩, hserved⟩
  · rw [List.nil_append] at hreading
    have hunder : ∀ result, phase ≠ .done result := by
      rintro result rfl
      exact hserved fun _ heq => ⟨result, (Stage.calling.inj heq).symm⟩
    obtain ⟨laps, hlapped⟩ := hreading.laps
    refine .inl ⟨above, phase, register, hlater, hfound, hunder, ⟨laps, ?_⟩, ?_⟩
    · rw [hsound.logging_reading htraced hreading]
      exact hlapped
    · exact hsound.paced htraced
        (hreading.budgeted.mono (Nat.zero_le _) (hlapped.work_pos hunder))
  · rw [List.nil_append] at hreading
    obtain ⟨result, rfl⟩ := hserved phase rfl
    exact .inr ⟨early, late, above, result, rfl, hlater,
      hsound.paced htraced hreading.budgeted, hsound.returned htraced hreading⟩

/-- However threads that perform ordinary operations interleave, replacements pay for the rounds of
every read, and what a read yields was the content from its last look at the content to its last
look at the version. -/
theorem run_attentive {programs : List (List Operation)}
    (hordinary : ∀ ops ∈ programs, Operation.ordinaryAll ops = true) (schedule : List ℕ) :
    ((start programs : Crew β).run schedule).Attentive :=
  have hsound : (start programs : Crew β).Sound := start_sound hordinary
  (hsound.run schedule).attentive (hsound.traced_run rfl schedule)

/-- The first thread puts an object into a cell in its own place while the second one reads it. -/
def revising : List (List Operation) :=
  [[.alloc (some "a") (some (.int 1)) (some .mutable) [] [],
      .newCell (some "c") (.given .acceptAll) (.named "a") (some (some .atomic)) (some .value) none,
      .onCell (some "c") .set (.named "a") .empty none],
    [.onCell (some "c") .get .empty .empty none]]

/-- The steps up to the first one of the read. -/
def approach : List ℕ :=
  List.replicate 6 0 ++ [1]

/-- The reader has a unit when the content is replaced. -/
def revision : List ℕ :=
  List.replicate 6 1 ++ List.replicate 14 0 ++ List.replicate 14 1

/-- The object is the same, but the read starts anew. -/
theorem run_attentive_revising : (∀ ops ∈ revising, Operation.ordinaryAll ops = true) ∧
    (((start revising : Crew Staged).run approach).callAt? 1 1).map (·.stage) =
      some (.calling (.locking (.read 0))) ∧
    ((start revising : Crew Staged).run approach).logging 1 1 revision =
      [.acquire 0, .retry 0 1 1, .release 0, .acquire 0] ∧
    ((start revising : Crew Staged).run approach).drift 1 1 revision 0 = 1 ∧
    ((start revising : Crew Staged).run approach).Attentive :=
  ⟨by decide, by decide +kernel, by decide +kernel, by decide +kernel,
    run_attentive (by decide) approach⟩

end Crew

end SharedCell
