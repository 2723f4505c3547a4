import Mathlib
import SharedCell.Proofs.Agenda.Clearing
import SharedCell.Proofs.Agenda.LoggedUnits
import SharedCell.Proofs.Crew.Moments

/-!
# Records of a call

What a call does in its own steps shows in the log and in the counts of the objects.  Each of these
steps adds to the log what the effect of the step says, and moves the count of an object by one if
the effect deals in a unit on this object, unless the object is permanent.
-/

namespace SharedCell

/-! ## Events -/

/-- Whether a guard is asked, which is logged only if the questions of the guard are reported. -/
def Effect.asks : Effect → Bool
  | .ask _ => true
  | _ => false

/-- The effect that an event in the log tells of. -/
def Event.effect? : Event → Option Effect
  | .acquired obj _ => some (.acquire obj)
  | .released obj _ => some (.release obj)
  | .rejected obj => some (.reject obj)
  | .retried observed current attempt => some (.retry observed current attempt)
  | .waited version rounds => some (.wait version rounds)
  | .asked _ | .destroyed _ => none

/-- By how much effects change the number of units on an object. -/
def Effect.net (effects : List Effect) (obj : ObjectId) : ℤ :=
  effects.count (.acquire obj) - effects.count (.release obj)

theorem Effect.net_append (first second : List Effect) (obj : ObjectId) :
    net (first ++ second) obj = net first obj + net second obj := by
  rw [net, net, net, List.count_append, List.count_append]
  push_cast
  ring

variable {β : Type}

namespace World

/-- The effects that the log tells of between two worlds. -/
def noted (world next : World β) : List Effect :=
  (next.log.take (next.log.length - world.log.length)).reverse.filterMap (·.2.effect?)

variable {world next last : World β}

theorem noted_of_log (events : List (ℕ × Event)) (hlog : next.log = events ++ world.log) :
    world.noted next = events.reverse.filterMap (·.2.effect?) := by
  rw [noted, hlog, List.length_append, Nat.add_sub_cancel, List.take_left]

variable [Resident β]

/-- Questions, rejections and reports are logged from the first step on. -/
theorem Change.traced {thread : ℕ} (hchange : Change thread world next)
    (htraced : world.traced = true) : next.traced = true := by
  cases hchange with
  | giveUp htake =>
    obtain ⟨object, refs, -, -, rfl⟩ := takeRef_eq_some htake
    exact htraced
  | store hids name unit =>
    obtain ⟨holders, nextHolder, hstored⟩ := world.exists_stored name unit
    rw [hstored]
    exact htraced
  | endUse hids id =>
    obtain ⟨holders, hended⟩ := world.exists_endUsed id
    rw [hended]
    exact htraced
  | _ => exact htraced

theorem traced_release (htraced : world.traced = true) (thread : ℕ) (obj : ObjectId) :
    (world.release thread obj).traced = true := by
  rw [release_eq]
  exact htraced

/-! ## Counts -/

theorem objects_release (world : World β) (thread : ℕ) (obj : ObjectId) :
    (world.release thread obj).objects = (world.modifyObject obj fun object =>
      { object with
        body := (Counted.release object.body).1
        destroyed := object.destroyed || world.isLast obj }).objects := by
  rw [release_eq]

theorem count_of_objects (hobjects : next.objects = world.objects) (obj : ObjectId) :
    next.count obj = world.count obj := by
  rw [count, object?, hobjects, count, object?]

theorem count_of_object {obj : ObjectId} {object : Object β}
    (hobject : world.object? obj = some object) :
    world.count obj = Resident.count object.body := by
  rw [count, hobject]

theorem count_modifyObject_of_ne {unit obj : ObjectId} (hne : unit ≠ obj)
    (change : Object β → Object β) :
    (world.modifyObject unit change).count obj = world.count obj := by
  rw [count, object?, Books.getElem?_modifyObject, if_neg hne, count, object?]

theorem count_modifyObject {obj : ObjectId} {object : Object β}
    (hobject : world.object? obj = some object) (change : Object β → Object β) :
    (world.modifyObject obj change).count obj = Resident.count (change object).body := by
  rw [object?] at hobject
  rw [count, object?, Books.getElem?_modifyObject, if_pos rfl, hobject, Option.map_some]

theorem Persists.permanent (hpersists : world.Persists last) {obj : ObjectId} {object : Object β}
    (hobject : world.object? obj = some object) :
    (last.facts obj).permanent = Counted.isPermanent object.body := by
  obtain ⟨later, hlater, hkept⟩ := hpersists obj object hobject
  rw [facts, hlater]
  exact hkept.permanent

variable [Lawful β]

/-- A unit that is acquired counts, unless the object is permanent. -/
theorem count_acquire {obj : ObjectId} {object : Object β}
    (hobject : world.object? obj = some object) (thread : ℕ) :
    (world.acquire thread obj).count obj =
      world.count obj + if Counted.isPermanent object.body then 0 else 1 := by
  change (world.modifyObject obj Object.acquired).count obj = _
  rw [count_modifyObject hobject, count_of_object hobject, Object.acquired]
  split
  · rename_i hpermanent
    rw [Lawful.acquire_permanent _ hpermanent, add_zero]
  · rename_i hcounted
    rw [Lawful.count_acquire _ (Bool.eq_false_iff.mpr hcounted)]

/-- A unit that is released counts no more, unless the object is permanent. -/
theorem count_release {obj : ObjectId} {object : Object β}
    (hobject : world.object? obj = some object)
    (hcount : Counted.isPermanent object.body = true ∨ 1 ≤ Resident.count object.body)
    (thread : ℕ) :
    (world.release thread obj).count obj =
      world.count obj - if Counted.isPermanent object.body then 0 else 1 := by
  rw [count_of_objects (world.objects_release thread obj), count_modifyObject hobject,
    count_of_object hobject]
  split
  · rename_i hpermanent
    rw [Lawful.release_permanent _ hpermanent, sub_zero]
  · rename_i hcounted
    exact Lawful.count_release _ (Bool.eq_false_iff.mpr hcounted) (hcount.resolve_left hcounted)

end World

/-! ## Steps of calls -/

namespace Call

variable [Resident β] {world next last : World β} {thread : ℕ} {call : Call} {frames : List Frame}

/-- An effect of a call is in the log, a question apart. -/
theorem noted_affect (htraced : world.traced = true) (thread : ℕ) (guard : Guard)
    (effect : Option Effect) :
    world.noted (affect world thread guard effect).1 =
      effect.toList.filter (!·.asks) := by
  have htrace {event : Event} (told : Option Effect) (htold : event.effect? = told) :
      world.noted (world.trace thread event) = told.toList := by
    rw [World.trace, if_pos htraced, World.noted_of_log [(thread, event)] rfl]
    subst htold
    cases hevent : event.effect? <;> simp [hevent]
  cases effect with
  | none => exact World.noted_of_log [] rfl
  | some effect =>
    cases effect with
    | acquire obj =>
      exact World.noted_of_log [(thread, .acquired obj (world.count obj))] rfl
    | release obj =>
      change world.noted (world.release thread obj) = _
      rw [World.noted_of_log _
        ((Books.log_release world thread obj).trans (List.append_cons _ _ _))]
      split <;> rfl
    | ask obj =>
      change world.noted (world.ask thread guard obj) = []
      rw [World.ask]
      split
      · exact htrace none rfl
      · exact World.noted_of_log [] rfl
    | reject obj => exact htrace (some (.reject obj)) rfl
    | retry observed current attempt => exact htrace (some (.retry observed current attempt)) rfl
    | wait version rounds => exact htrace (some (.wait version rounds)) rfl

/-- A step of a call logs its effect, a question apart, and nothing else that is told of here. -/
theorem noted_step (htraced : world.traced = true)
    (hstep : call.step world thread = some (next, frames)) :
    world.noted next = call.stage.effect?.toList.filter (!·.asks) := by
  rcases step_cases hstep with
    ⟨outcome, hfinished, rfl, -⟩ | ⟨cell, slot, stage, effect, -, hstage, rfl, -⟩
  · rw [hfinished]
    exact World.noted_of_log [] (log_conclude world call outcome)
  · rw [← Stage.effect_step hstage]
    have hkept : (world.modifyCell call.cell ({ · with slot })).traced = true := htraced
    exact noted_affect hkept thread cell.guard effect

variable [Lawful β]

/-- The unit that is dealt in counts from then on or counts no more. -/
theorem count_affect (world : World β) {effect : Option Effect} (hpersists : world.Persists last)
    (hlive : ∀ obj, effect = some (.acquire obj) ∨ effect = some (.release obj) → world.Live obj)
    (thread : ℕ) (guard : Guard) (obj : ObjectId) :
    (affect world thread guard effect).1.count obj - world.count obj =
      if (last.facts obj).permanent then 0 else Effect.net effect.toList obj := by
  have hquiet {after : World β} (hsame : after.count obj = world.count obj)
      (hnet : Effect.net effect.toList obj = 0) :
      after.count obj - world.count obj =
        if (last.facts obj).permanent then 0 else Effect.net effect.toList obj := by
    rw [hsame, sub_self, hnet, ite_self]
  cases effect with
  | none => exact hquiet rfl rfl
  | some effect =>
    cases effect with
    | acquire unit =>
      by_cases hunit : unit = obj
      · subst hunit
        obtain ⟨object, hobject, -⟩ := hlive unit (.inl rfl)
        change (world.acquire thread unit).count unit - _ = _
        rw [World.count_acquire hobject, hpersists.permanent hobject]
        split <;> simp [Effect.net]
      · exact hquiet (World.count_modifyObject_of_ne hunit _) (by simp [Effect.net, hunit])
    | release unit =>
      by_cases hunit : unit = obj
      · subst hunit
        obtain ⟨object, hobject, -, hcount⟩ := hlive unit (.inr rfl)
        change (world.release thread unit).count unit - _ = _
        rw [World.count_release hobject hcount, hpersists.permanent hobject]
        split <;> simp [Effect.net]
      · refine hquiet ?_ (by simp [Effect.net, hunit])
        exact (World.count_of_objects (world.objects_release thread unit) obj).trans
          (World.count_modifyObject_of_ne hunit _)
    | ask asked =>
      obtain ⟨log, hasked⟩ := world.exists_asked thread guard asked
      exact hquiet (World.count_of_objects (congrArg World.objects hasked) obj) rfl
    | reject | retry | wait =>
      obtain ⟨log, htraced⟩ := world.exists_traced thread _
      exact hquiet (World.count_of_objects (congrArg World.objects htraced) obj) rfl

/-- A step of a call changes the count of an object by what its effect says. -/
theorem count_step {stakes : Stakes} (hsound : world.Sound stakes) (hcall : call ∈ stakes.calls)
    (hpersists : world.Persists last) (hstep : call.step world thread = some (next, frames))
    (obj : ObjectId) : next.count obj - world.count obj =
      if (last.facts obj).permanent then 0 else Effect.net call.stage.effect?.toList obj := by
  rcases step_cases hstep with
    ⟨outcome, hfinished, rfl, -⟩ | ⟨cell, slot, stage, effect, hcell, hstage, rfl, -⟩
  · obtain ⟨cells, hsettled⟩ := call.exists_settled world outcome
    have hobjects : (call.conclude world outcome).1.objects = world.objects := by
      rw [conclude, hsettled]
    rw [hfinished, World.count_of_objects hobjects, sub_self]
    exact (ite_self _).symm
  · have heffect : call.effect? world = effect := by
      simp [Call.effect?, hcell, hstage]
    rw [← Stage.effect_step hstage]
    have hlive (obj : ObjectId)
        (hdeals : effect = some (.acquire obj) ∨ effect = some (.release obj)) :
        (world.modifyCell call.cell ({ · with slot })).Live obj :=
      hsound.live_of_effect hcall (heffect ▸ hdeals)
    exact count_affect (world.modifyCell call.cell ({ · with slot })) hpersists hlive thread
      cell.guard obj

end Call

/-! ## Runs -/

open Moment

namespace Crew

variable [Resident β] {crew next : Crew β} {thread depth other : ℕ}

theorem Sound.traced_step [Lawful β] (hsound : crew.Sound) (htraced : crew.world.traced = true)
    (hstep : crew.step thread = some next) : next.world.traced = true := by
  obtain ⟨agenda, world, later, hagenda, hframe, rfl⟩ := step_eq_some hstep
  exact Frame.step_keeps (fun _ _ => World.Change.traced)
    (fun _ obj htraced => World.traced_release htraced thread obj) (fun _ _ _ htraced => htraced)
    hsound.world (hsound.ordinary_agenda (List.mem_of_getElem? hagenda)) hframe htraced

theorem Sound.traced_run [Lawful β] (hsound : crew.Sound) (htraced : crew.world.traced = true)
    (schedule : List ℕ) : (crew.run schedule).world.traced = true :=
  hsound.run_keeps (fun later => later.world.traced = true)
    (fun _ _ _ hsound htraced hstep => hsound.traced_step htraced hstep) htraced schedule

/-- The worlds before and after the next step of a thread, if it is a step of the call that has so
many frames below it. -/
def ownStep? (crew : Crew β) (thread depth other : ℕ) : Option (World β × World β) := do
  let next ← crew.step other
  let moment ← crew.moment? thread depth other
  if moment.own then some (crew.world, next.world) else none

/-- The worlds before and after each step that a call makes itself. -/
def ownSteps (thread depth : ℕ) : Crew β → List ℕ → List (World β × World β)
  | _, [] => []
  | crew, other :: schedule => (crew.ownStep? thread depth other).toList ++
      ownSteps thread depth ((crew.step other).getD crew) schedule

/-- What a call does in its own steps, as the log tells it. -/
def logging (crew : Crew β) (thread depth : ℕ) (schedule : List ℕ) : List Effect :=
  (crew.ownSteps thread depth schedule).flatMap fun worlds => worlds.1.noted worlds.2

/-- By how much a call changes the count of an object in its own steps. -/
def drift (crew : Crew β) (thread depth : ℕ) (schedule : List ℕ) (obj : ObjectId) : ℤ :=
  ((crew.ownSteps thread depth schedule).map fun worlds =>
    worlds.2.count obj - worlds.1.count obj).sum

/-- A step of a thread is one of the call itself, or the call has no effect. -/
theorem ownStep?_cases (crew : Crew β) (thread depth other : ℕ) :
    crew.ownStep? thread depth other = none ∧
        effects (crew.moment? thread depth other).toList = [] ∨
      ∃ call below next frames, crew.agendas[thread]? = some (.call call :: below) ∧
        crew.step other = some next ∧
        call.step crew.world thread = some (next.world, frames) ∧
        crew.ownStep? thread depth other = some (crew.world, next.world) ∧
        effects (crew.moment? thread depth other).toList = call.stage.effect?.toList := by
  cases hstep : crew.step other with
  | none => exact .inl ⟨by rw [ownStep?, hstep]; rfl, by rw [moment?_none hstep]; rfl⟩
  | some next =>
    cases hmoment : crew.moment? thread depth other with
    | none => exact .inl ⟨by rw [ownStep?, hstep, hmoment]; rfl, rfl⟩
    | some moment =>
      obtain ⟨stage, own, waits, register, later⟩ := moment
      cases own with
      | false => exact .inl ⟨by rw [ownStep?, hstep, hmoment]; rfl, effects_other _ _ _ _⟩
      | true =>
        obtain ⟨rfl, call, below, hagenda, hstage⟩ := moment?_own hmoment rfl
        obtain ⟨agenda, world, frames, hfound, hframe, rfl⟩ := step_eq_some hstep
        obtain rfl := Option.some.inj (hagenda.symm.trans hfound)
        obtain ⟨⟨after, opened⟩, hactive, hresult⟩ := Option.map_eq_some_iff.mp hframe
        obtain ⟨rfl, -⟩ := Prod.mk.inj hresult
        refine .inr ⟨call, below, _, opened, hagenda, rfl, hactive, ?_, ?_⟩
        · rw [ownStep?, hstep, hmoment]
          rfl
        · rw [Option.toList_some, effects_own]
          exact congrArg (fun stage => stage.effect?.toList) hstage

theorem logging_cons (crew : Crew β) (thread depth other : ℕ) (schedule : List ℕ) :
    crew.logging thread depth (other :: schedule) =
      (crew.ownStep? thread depth other).toList.flatMap
          (fun worlds => worlds.1.noted worlds.2) ++
        ((crew.step other).getD crew).logging thread depth schedule :=
  List.flatMap_append

theorem drift_cons (crew : Crew β) (thread depth other : ℕ) (schedule : List ℕ) (obj : ObjectId) :
    crew.drift thread depth (other :: schedule) obj =
      ((crew.ownStep? thread depth other).toList.map fun worlds =>
          worlds.2.count obj - worlds.1.count obj).sum +
        ((crew.step other).getD crew).drift thread depth schedule obj := by
  rw [drift, ownSteps, List.map_append, List.sum_append, drift]

variable [Lawful β]

theorem Sound.getD_step (hsound : crew.Sound) (other : ℕ) :
    ((crew.step other).getD crew).Sound := by
  cases hstep : crew.step other with
  | none => exact hsound
  | some next => exact hsound.step hstep

/-- The log tells of the effects of a call. -/
theorem Sound.logging_eq (hsound : crew.Sound) (htraced : crew.world.traced = true)
    (thread depth : ℕ) (schedule : List ℕ) :
    crew.logging thread depth schedule =
      (effects (crew.moments thread depth schedule)).filter (!·.asks) := by
  induction schedule generalizing crew with
  | nil => rfl
  | cons other schedule ih =>
    have hlater : ((crew.step other).getD crew).world.traced = true :=
      hsound.traced_run htraced [other]
    rw [logging_cons, moments, effects_append, List.filter_append,
      ih (hsound.getD_step other) hlater]
    congr 1
    rcases crew.ownStep?_cases thread depth other with
      ⟨hown, heffects⟩ | ⟨call, below, next, frames, -, -, hactive, hown, heffects⟩
    · rw [hown, heffects]
      rfl
    · rw [hown, heffects, Option.toList_some, List.flatMap_singleton,
        Call.noted_step htraced hactive]

/-- The counts tell of the units that a call deals in, those on permanent objects apart. -/
theorem Sound.drift_eq (hsound : crew.Sound) (thread depth : ℕ) (schedule : List ℕ)
    (obj : ObjectId) :
    crew.drift thread depth schedule obj =
      if ((crew.run schedule).world.facts obj).permanent then 0
      else Effect.net (effects (crew.moments thread depth schedule)) obj := by
  induction schedule generalizing crew with
  | nil => exact (ite_self _).symm
  | cons other schedule ih =>
    have hstep : ((crew.ownStep? thread depth other).toList.map fun worlds =>
          worlds.2.count obj - worlds.1.count obj).sum =
        if ((crew.run (other :: schedule)).world.facts obj).permanent then 0
        else Effect.net (effects (crew.moment? thread depth other).toList) obj := by
      rcases crew.ownStep?_cases thread depth other with
        ⟨hown, heffects⟩ | ⟨call, below, next, frames, hagenda, -, hactive, hown, heffects⟩
      · rw [hown, heffects]
        exact (ite_self _).symm
      · have hcall : call ∈ crew.stakes.calls :=
          Stakes.mem_calls_of_mem
            (List.mem_flatten.mpr ⟨_, List.mem_of_getElem? hagenda, List.mem_cons_self⟩)
        rw [hown, heffects, Option.toList_some, List.map_singleton, List.sum_singleton]
        exact Call.count_step hsound.world hcall (hsound.persists _) hactive obj
    rw [drift_cons, hstep, ih (hsound.getD_step other), moments, effects_append, Effect.net_append,
      Crew.run]
    split
    · rfl
    · rfl

end Crew

end SharedCell
