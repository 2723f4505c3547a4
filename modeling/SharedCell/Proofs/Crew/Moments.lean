import Mathlib
import SharedCell.Proofs.Cell.Exchange
import SharedCell.Proofs.Crew.CallRuns

/-!
# Moments of a call

All that happens while a call is under way, step by step: where the call is, whether the step is its
own, and what content and version of its cell are before the step and after it.  What the call's own
steps preserve, and what no other step breaks, holds of this record and of the call until the call
comes to its last stage.
-/

namespace SharedCell

/-- A step of a crew as a call sees it. -/
structure Moment where
  /-- Where the call is before the step. -/
  stage : Stage
  /-- Whether the step is one of the call. -/
  own : Bool
  /-- Whether the call only finds that what it has displaced is still pinned. -/
  waits : Bool
  /-- Content and version of the cell before the step. -/
  register : Register
  later : Register

namespace Moment

/-- Whether the content of the cell is replaced. -/
def replaces (moment : Moment) : Bool :=
  moment.later ≠ moment.register

/-- The effects of the steps that a call has made itself. -/
def effects (moments : List Moment) : List Effect :=
  effectsOf ((moments.filter (·.own)).map (·.stage))

/-- How many steps a call has made itself. -/
def turns (moments : List Moment) : ℕ :=
  moments.countP (·.own)

/-- How often a call has found that what it has displaced was still pinned. -/
def rounds (moments : List Moment) : ℕ :=
  moments.countP (·.waits)

/-- How often the content of the cell was replaced. -/
def replacements (moments : List Moment) : ℕ :=
  moments.countP (·.replaces)

theorem effects_append (first second : List Moment) :
    effects (first ++ second) = effects first ++ effects second := by
  rw [effects, List.filter_append, List.map_append, effectsOf_append]
  rfl

theorem effects_own (stage : Stage) (waits : Bool) (register later : Register) :
    effects [{ stage, own := true, waits, register, later }] = stage.effect?.toList := by
  cases heffect : stage.effect? <;> simp [effects, effectsOf, heffect]

theorem effects_other (stage : Stage) (waits : Bool) (register later : Register) :
    effects [{ stage, own := false, waits, register, later }] = [] := rfl

theorem turns_append (first second : List Moment) :
    turns (first ++ second) = turns first + turns second :=
  List.countP_append

theorem rounds_append (first second : List Moment) :
    rounds (first ++ second) = rounds first + rounds second :=
  List.countP_append

theorem replacements_append (first second : List Moment) :
    replacements (first ++ second) = replacements first + replacements second :=
  List.countP_append

end Moment

namespace Crew

variable {β : Type} [Resident β] {crew next : Crew β} {thread other : ℕ} {above below : List Frame}
  {call : Call}

/-- What the next step of a thread is to the call that has so many frames below it. -/
def moment? (crew : Crew β) (thread depth other : ℕ) : Option Moment := do
  let next ← crew.step other
  let agenda ← crew.agendas[thread]?
  let .call call ← agenda.reverse[depth]? | none
  let register ← crew.world.register? call.cell
  let later ← next.world.register? call.cell
  let own := other == thread && agenda.length == depth + 1
  pure { stage := call.stage, own, waits := own && crew.polls thread, register, later }

/-- What the steps of a schedule are to the call at this depth. -/
def moments (thread depth : ℕ) : Crew β → List ℕ → List Moment
  | _, [] => []
  | crew, other :: schedule => (crew.moment? thread depth other).toList ++
      moments thread depth ((crew.step other).getD crew) schedule

theorem moments_append (thread depth : ℕ) (crew : Crew β) (early late : List ℕ) :
    crew.moments thread depth (early ++ late) =
      crew.moments thread depth early ++ (crew.run early).moments thread depth late := by
  induction early generalizing crew with
  | nil => rfl
  | cons other early ih => rw [List.cons_append, moments, moments, ih, Crew.run, List.append_assoc]

theorem moment?_none (hstep : crew.step other = none) (depth : ℕ) :
    crew.moment? thread depth other = none := by
  rw [moment?, hstep]
  rfl

theorem moment?_step (above : List Frame) {register later : Register}
    (hstep : crew.step other = some next)
    (hagenda : crew.agendas[thread]? = some (above ++ .call call :: below))
    (hregister : crew.world.register? call.cell = some register)
    (hlater : next.world.register? call.cell = some later) :
    crew.moment? thread below.length other = some {
      stage := call.stage
      own := other == thread && above.isEmpty
      waits := other == thread && above.isEmpty && crew.polls thread
      register
      later } := by
  have hplace : (above ++ .call call :: below).reverse[below.length]? = some (.call call) := by
    simp
  have hlength : ((above ++ .call call :: below).length == below.length + 1) = above.isEmpty := by
    cases above <;> simp
    omega
  rw [moment?, hstep, hagenda]
  simp only [Option.bind_eq_bind, Option.bind_some, hplace, hregister, hlater, hlength,
    Option.pure_def]

/-- A step that is the call's own is one of a thread with the call on top. -/
theorem moment?_own {depth : ℕ} {moment : Moment}
    (hmoment : crew.moment? thread depth other = some moment) (hown : moment.own = true) :
    other = thread ∧ ∃ call below, crew.agendas[thread]? = some (.call call :: below) ∧
      moment.stage = call.stage := by
  simp only [moment?, Option.bind_eq_bind, Option.bind_eq_some_iff, Option.pure_def] at hmoment
  obtain ⟨next, -, agenda, hagenda, frame, hframe, hrest⟩ := hmoment
  split at hrest
  · rename_i call
    simp only [Option.bind_eq_some_iff] at hrest
    obtain ⟨register, -, later, -, hrest⟩ := hrest
    obtain rfl := Option.some.inj hrest
    obtain ⟨hthread, hlength⟩ := Bool.and_eq_true_iff.mp hown
    cases agenda with
    | nil => cases hframe
    | cons top below =>
      obtain rfl : below.length = depth := Nat.succ.inj (beq_iff_eq.mp hlength)
      obtain rfl : top = .call call := by simpa using hframe
      exact ⟨beq_iff_eq.mp hthread, call, below, hagenda, rfl⟩
  · cases hrest

/-- What a call preserves with its own steps, and what others do not break, until the call comes to
its last stage. -/
structure Sustained (action : Action) (last : Stage → Prop)
    (property : Register → List Moment → Stage → Prop) : Prop where
  finished : ∀ outcome, last (.finished outcome)
  own : ∀ kind guard facts shape slot next stage later effect record, ¬ last stage →
    property slot.register record stage →
    Stage.step kind guard action facts shape slot stage = some (next, later, effect) →
      property next.register
        (record ++ [{
          stage
          own := true
          waits := stage.polls slot
          register := slot.register
          later := next.register }])
        later
  others : ∀ register turned record stage, ¬ last stage →
    register.Turns stage.phase.holdsLock turned → property register record stage →
      property turned
        (record ++ [{ stage, own := false, waits := false, register, later := turned }]) stage

variable {last : Stage → Prop} {property : Register → List Moment → Stage → Prop}
  {record : List Moment}

/-- One step of any thread, as long as the call is not at its last stage. -/
theorem Sound.sustained_step [Lawful β] (hsound : crew.Sound)
    (hsustained : Sustained call.action last property)
    (hat : crew.At (fun register record stage => property register record stage ∧ ¬ last stage)
      thread call below record) (hstep : crew.step other = some next) :
    next.At property thread call below
      (record ++ (crew.moment? thread below.length other).toList) := by
  obtain ⟨above, stage, register, hagenda, hregister, hproperty, hlast⟩ := hat
  rcases hsound.step_about hagenda hregister hstep with
    ⟨hother, rest, turned, hrest, hturned, hturns⟩ | ⟨rfl, rfl, outcome, hfinished⟩ |
    ⟨rfl, rfl, cell, slot, later, effect, rest, hcell, hstage, hrest, hnext⟩
  · have hown : (other == thread && above.isEmpty) = false := by
      rcases hother with hne | hne
      · rw [beq_false_of_ne hne, Bool.false_and]
      · rw [List.isEmpty_eq_false_iff.mpr hne, Bool.and_false]
    rw [moment?_step above hstep hagenda hregister hturned, hown, Option.toList_some,
      Bool.false_and]
    exact ⟨rest, stage, turned, hrest, hturned,
      hsustained.others register turned record stage hlast hturns hproperty⟩
  · obtain rfl : stage = .finished outcome := hfinished
    exact absurd (hsustained.finished outcome) hlast
  · obtain rfl := Option.some.inj (hregister.symm.trans (World.register?_of_cell hcell))
    have hwaits : crew.polls other = stage.polls cell.slot := by
      simp only [polls, hagenda, Frame.polls, Call.polls, hcell, Option.any_some, List.nil_append]
    rw [moment?_step [] hstep hagenda hregister hnext, hwaits, beq_self_eq_true, Option.toList_some]
    exact ⟨rest, later, slot.register, hrest, hnext,
      hsustained.own _ _ _ _ _ _ _ _ _ _ hlast hproperty hstage⟩

omit [Resident β] in
theorem At.under_or_last (hat : crew.At property thread call below record) (last : Stage → Prop) :
    crew.At (fun register record stage => property register record stage ∧ ¬ last stage) thread call
        below record ∨
      crew.At (fun register record stage => property register record stage ∧ last stage) thread call
        below record := by
  obtain ⟨above, stage, register, hagenda, hregister, hproperty⟩ := hat
  by_cases hlast : last stage
  · exact .inr ⟨above, stage, register, hagenda, hregister, hproperty, hlast⟩
  · exact .inl ⟨above, stage, register, hagenda, hregister, hproperty, hlast⟩

/-- Whatever steps a schedule consists of, what a call preserves holds to its end, or up to the step
with which the call comes to its last stage. -/
theorem Sound.sustained [Lawful β] (hsound : crew.Sound)
    (hsustained : Sustained call.action last property)
    (hat : crew.At property thread call below record) (schedule : List ℕ) :
    (crew.run schedule).At
        (fun register record stage => property register record stage ∧ ¬ last stage) thread call below
        (record ++ crew.moments thread below.length schedule) ∨
      ∃ early late, schedule = early ++ late ∧
        (crew.run early).At
          (fun register record stage => property register record stage ∧ last stage) thread call below
          (record ++ crew.moments thread below.length early) := by
  have hkept (crew next : Crew β) (other : ℕ) (record : List Moment) (hsound : crew.Sound)
      (hat : crew.At property thread call below record) (hstep : crew.step other = some next) :
      next.At property thread call below
          (record ++ (crew.moment? thread below.length other).toList) ∨
        crew.At (fun register record stage => property register record stage ∧ last stage) thread
          call below record :=
    (hat.under_or_last last).imp_left fun hunder => hsound.sustained_step hsustained hunder hstep
  rcases hsound.followed (moments thread below.length) (fun _ => rfl) (fun _ _ _ => rfl)
    (fun _ _ hstep => moment?_none hstep below.length) hkept hat schedule with hat | hended
  · rcases hat.under_or_last last with hunder | hended
    · exact .inl hunder
    · exact .inr ⟨schedule, [], (List.append_nil schedule).symm, hended⟩
  · exact .inr hended

end Crew

end SharedCell
