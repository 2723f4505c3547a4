import Mathlib
import SharedCell.Proofs.Crew.Publication

/-!
# Access to what is frozen

Whoever asks for access to a payload looks at the state of the object first, and at its count
afterwards.  Freezing is final for everybody who has yet to look at the state.  It is not for those
who have already seen it: if the object is frozen meanwhile, and is down to the one unit again when
its count is looked at, access is granted to what is frozen.
-/

namespace SharedCell

/-- Whether whoever performs the frame has seen the object to be mutable. -/
def Frame.sees (obj : ObjectId) : Frame → Bool
  | .mutate _ other _ stateSeen => stateSeen && other == obj
  | _ => false

theorem Frame.sees_mutate (holder : ℕ) (obj : ObjectId) (payload : Payload) :
    (Frame.mutate holder obj payload true).sees obj = true := by
  simp [Frame.sees]

variable {β : Type} [Resident β]

theorem World.facts_eq {world : World β} {obj : ObjectId} {object : Object β}
    (hobject : world.object? obj = some object) :
    world.facts obj = Resident.facts object.body := by
  rw [facts, hobject]

/-- What is frozen or permanent keeps its payload and its state while its payload is left alone. -/
theorem Object.Tends.facts_of_immutable [Lawful β] {spared : Prop} {object later : Object β}
    (htends : object.Tends spared later) (himmutable : Resident.isMutable object.body = false) :
    Resident.facts later.body = Resident.facts object.body := by
  rcases htends.facts with hsame | ⟨hcounted, hfrozen⟩
  · exact hsame
  · have halready : Counted.isFrozen object.body = true := by
      simpa [Lawful.isMutable_eq, hcounted] using himmutable
    rw [hfrozen, Resident.facts, halready]

namespace Crew

variable {crew next : Crew β} {thread : ℕ} {obj : ObjectId}

/-- An object that is frozen or permanent, and that nobody who is asking for access has seen to be
mutable. -/
structure Final (crew : Crew β) (obj : ObjectId) : Prop where
  object : ∃ object, crew.world.object? obj = some object ∧ Resident.isMutable object.body = false
  unseen : ∀ agenda ∈ crew.agendas, ∀ frame ∈ agenda, frame.sees obj = false

/-- Nobody gets to see a frozen object mutable. -/
theorem Sound.unseen_step (hsound : crew.Sound) (hfinal : crew.Final obj)
    (hstep : crew.step thread = some next) :
    ∀ agenda ∈ next.agendas, ∀ frame ∈ agenda, frame.sees obj = false := by
  intro agenda hagenda frame hmem
  obtain ⟨object, hobject, himmutable⟩ := hfinal.object
  obtain ⟨frames, world, later, hframes, hframe, rfl⟩ := step_eq_some hstep
  have hpresent := List.mem_of_getElem? hframes
  rcases List.mem_or_eq_of_mem_set hagenda with hother | rfl
  · exact hfinal.unseen agenda hother frame hmem
  · cases Frame.comes_step (hsound.ordinary_agenda hpresent) hframe frame hmem with
    | kept hkept => exact hfinal.unseen frames hpresent frame (List.mem_of_mem_tail hkept)
    | opening hopening =>
      cases frame with
      | mutate holder other payload stateSeen =>
        obtain rfl : stateSeen = false := hopening
        rfl
      | _ => rfl
    | stepped active below cell slot stage effect _ _ _ _ heq => exact heq ▸ rfl
    | seen holder other payload below found _ hfound hmutable _ heq =>
      rw [heq, Frame.sees, Bool.true_and, beq_eq_false_iff_ne]
      rintro rfl
      rw [hobject] at hfound
      obtain rfl := Option.some.inj hfound
      rw [himmutable] at hmutable
      cases hmutable

variable [Lawful β]

/-- No step changes an object that is final. -/
theorem Sound.facts_step (hsound : crew.Sound) (hfinal : crew.Final obj)
    (hstep : crew.step thread = some next) :
    ∃ after, next.world.object? obj = some after ∧
      Resident.facts after.body = crew.world.facts obj := by
  obtain ⟨object, hobject, himmutable⟩ := hfinal.object
  obtain ⟨frames, world, later, hframes, hframe, rfl⟩ := step_eq_some hstep
  have hpresent := List.mem_of_getElem? hframes
  rw [World.facts_eq hobject]
  rcases Frame.tends_or_granted (fun _ => False) (hsound.ordinary_agenda hpresent)
    (fun _ _ _ => id) (fun _ _ _ _ _ => id) hframe with
      htends | ⟨holder, other, payload, below, found, rfl, -, -, rfl⟩
  · obtain ⟨after, hafter, htended⟩ := htends obj object hobject
    exact ⟨after, hafter, htended.facts_of_immutable himmutable⟩
  · have hne : other ≠ obj := by
      rintro rfl
      have hunseen := hfinal.unseen _ hpresent _ List.mem_cons_self
      rw [Frame.sees_mutate] at hunseen
      cases hunseen
    refine ⟨object, ?_, rfl⟩
    rw [World.object?, Books.getElem?_modifyObject, if_neg hne]
    exact hobject

theorem Sound.final_step (hsound : crew.Sound) (hfinal : crew.Final obj)
    (hstep : crew.step thread = some next) :
    next.Final obj ∧ next.world.facts obj = crew.world.facts obj := by
  obtain ⟨object, hobject, himmutable⟩ := hfinal.object
  obtain ⟨after, hafter, hfacts⟩ := hsound.facts_step hfinal hstep
  have hsame := hfacts.trans (World.facts_eq hobject)
  refine ⟨⟨⟨after, hafter, (Lawful.isMutable_of_facts hsame).trans himmutable⟩, ?_⟩, ?_⟩
  · exact hsound.unseen_step hfinal hstep
  · rw [World.facts_eq hafter, hfacts]

theorem Sound.final_run (hsound : crew.Sound) (hfinal : crew.Final obj) (schedule : List ℕ) :
    (crew.run schedule).Final obj ∧
      (crew.run schedule).world.facts obj = crew.world.facts obj := by
  refine hsound.run_keeps
    (fun later => later.Final obj ∧ later.world.facts obj = crew.world.facts obj) ?_ ⟨hfinal, rfl⟩
    schedule
  rintro later thread next hlater ⟨hfinal, hsame⟩ hstep
  obtain ⟨hnext, hfacts⟩ := hlater.final_step hfinal hstep
  exact ⟨hnext, hfacts.trans hsame⟩

/-- What becomes of an object between two moments, and of those who ask for access to it then. -/
structure Finality (crew later : Crew β) (obj : ObjectId) : Prop where
  facts : later.world.facts obj = crew.world.facts obj
  refused : ∀ thread next holder payload stateSeen below,
    later.agendas[thread]? = some (.mutate holder obj payload stateSeen :: below) →
    later.step thread = some next →
      next.agendas[thread]? = some (.tidy [.endUse holder] (.flag false) :: below)

omit [Lawful β] in
theorem Final.refused (hfinal : crew.Final obj) {holder : ℕ} {payload : Payload}
    {stateSeen : Bool} {below : List Frame}
    (hagenda : crew.agendas[thread]? = some (.mutate holder obj payload stateSeen :: below))
    (hstep : crew.step thread = some next) :
    next.agendas[thread]? = some (.tidy [.endUse holder] (.flag false) :: below) := by
  obtain ⟨object, hobject, himmutable⟩ := hfinal.object
  obtain ⟨frames, world, later, hframes, hframe, rfl⟩ := step_eq_some hstep
  obtain rfl := Option.some.inj (hagenda.symm.trans hframes)
  have hlt := (List.getElem?_eq_some_iff.mp hagenda).1
  cases stateSeen with
  | true =>
    have hunseen := hfinal.unseen _ (List.mem_of_getElem? hagenda) _ List.mem_cons_self
    rw [Frame.sees_mutate] at hunseen
    cases hunseen
  | false =>
    simp only [Frame.step, hobject, himmutable, Bool.false_eq_true, if_false, Bool.not_false,
      if_true, Option.some.injEq, Prod.mk.injEq] at hframe
    obtain ⟨-, rfl⟩ := hframe
    exact List.getElem?_set_self hlt

/-- However threads that perform ordinary operations interleave, an object that is frozen or
permanent stays as it is, and nobody gets access to it, unless somebody is about to look at its
count who has seen it mutable. -/
theorem run_final {programs : List (List Operation)}
    (hordinary : ∀ ops ∈ programs, Operation.ordinaryAll ops = true) (schedule further : List ℕ)
    (hfinal : ((start programs : Crew β).run schedule).Final obj) :
    ((start programs : Crew β).run schedule).Finality
      ((start programs : Crew β).run (schedule ++ further)) obj := by
  have hsound : (start programs : Crew β).Sound := start_sound hordinary
  rw [run_append]
  obtain ⟨hlast, hfacts⟩ := (hsound.run schedule).final_run hfinal further
  exact ⟨hfacts, fun _ _ _ _ _ _ hagenda hstep => hlast.refused hagenda hstep⟩

/-- One thread asks for access to an object, and another one freezes it, publishes it and gives up
its units. -/
def overtaking : List (List Operation) :=
  [[.alloc (some "a") (some (.int 1)) (some .mutable) [] [], .clone (some "a") (some "b"),
    .mutate (some (.int 2)) (some "a")],
   [.freeze (some "b"),
    .newCell (some "c") .absent (.named "b") (some (some .atomic)) (some .value) none,
    .dropCell (some "c"), .drop (some "b")]]

/-- All of this happens before the first thread has looked at the object. -/
theorem run_final_overtaking : (∀ ops ∈ overtaking, Operation.ordinaryAll ops = true) ∧
    ((start overtaking : Crew Staged).run
      (List.replicate 7 0 ++ List.replicate 12 1)).Finality
        ((start overtaking : Crew Staged).run
          (List.replicate 7 0 ++ List.replicate 12 1 ++ List.replicate 4 0)) 0 := by
  obtain ⟨object, hobject, himmutable⟩ := (Option.any_eq_true _ _).mp
    (show (((start overtaking : Crew Staged).run
      (List.replicate 7 0 ++ List.replicate 12 1)).world.object? 0).any
        (fun object => !Resident.isMutable object.body) = true by decide +kernel)
  have hfinal : ((start overtaking : Crew Staged).run
      (List.replicate 7 0 ++ List.replicate 12 1)).Final 0 :=
    ⟨⟨object, hobject, by simpa using himmutable⟩, by decide +kernel⟩
  exact ⟨by decide, run_final (by decide) _ (List.replicate 4 0) hfinal⟩

/-- All of this happens between its two looks, and it changes the payload of a frozen object. -/
theorem overtaking_unnoticed :
    (((start overtaking : Crew Staged).run
      (List.replicate 8 0 ++ List.replicate 12 1)).world.facts 0).frozen = true ∧
    (((start overtaking : Crew Staged).run
      (List.replicate 8 0 ++ List.replicate 12 1)).world.facts 0).payload.isEven = false ∧
    (((start overtaking : Crew Staged).run
      (List.replicate 8 0 ++ List.replicate 12 1 ++ [0])).world.facts 0).payload.isEven = true := by
  decide +kernel

end Crew

end SharedCell
