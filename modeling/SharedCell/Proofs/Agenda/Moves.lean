import Mathlib
import SharedCell.Agenda.Step

/-!
# Moves

All that a step of a thread can be.  What is on top of the agenda tells which move it is, and what
the move does to the world and to the agenda.
-/

namespace SharedCell.Frame

variable {β : Type} [Resident β] {thread : ℕ} {world next : World β} {agenda later : List Frame}

/-- The moves of a thread, with the world and the agenda that they lead to. -/
inductive Move (thread : ℕ) (world : World β) : List Frame → World β → List Frame → Prop where
  | call {active : Call} {next : World β} {frames : List Frame} (below : List Frame)
      (hstep : active.step world thread = some (next, frames)) :
      Move thread world (.call active :: below) next (frames ++ below)
  | refuse (holder : ℕ) (obj : ObjectId) (payload : Payload) (stateSeen : Bool)
      (below : List Frame) : Move thread world (.mutate holder obj payload stateSeen :: below) world
        (.tidy [.endUse holder] (.flag false) :: below)
  | look {object : Object β} (holder : ℕ) {obj : ObjectId} (payload : Payload) (below : List Frame)
      (hobject : world.object? obj = some object)
      (hmutable : Resident.isMutable object.body = true) :
      Move thread world (.mutate holder obj payload false :: below) world
        (.mutate holder obj payload true :: below)
  | write {object : Object β} (holder : ℕ) {obj : ObjectId} (payload : Payload) (below : List Frame)
      (hobject : world.object? obj = some object) (hsole : Resident.count object.body = 1) :
      Move thread world (.mutate holder obj payload true :: below)
        (world.modifyObject obj fun object =>
          { object with body := Resident.setPayload object.body payload })
        (.tidy [.endUse holder] (.flag true) :: below)
  | reply (told : Reply) (frame : Frame) (below : List Frame) :
      Move thread world (.tidy [] told :: frame :: below) (receive world told frame).1
        ((receive world told frame).2 :: below)
  | chore (chore : Chore) (chores : List Chore) (told : Reply) (below : List Frame) :
      Move thread world (.tidy (chore :: chores) told :: below) (chore.perform thread world).1
        ((chore.perform thread world).2 ++ .tidy chores told :: below)
  | told (owner : ObjectId) (below : List Frame) :
      Move thread world (.script owner [] :: below) world (.surrender owner :: below)
  | tell (owner : ObjectId) (op : Operation) (ops : List Operation) (below : List Frame) :
      Move thread world (.script owner (op :: ops) :: below) (op.start thread world).1
        ((op.start thread world).2 :: .script owner ops :: below)
  | surrendered {owner : ObjectId} (below : List Frame) (htake : world.takeRef owner = none) :
      Move thread world (.surrender owner :: below) world below
  | surrender {owner ref : ObjectId} {after : World β} (below : List Frame)
      (htake : world.takeRef owner = some (after, ref)) :
      Move thread world (.surrender owner :: below) (after.letGo thread ref).1
        ((after.letGo thread ref).2 ++ .surrender owner :: below)
  | ended (body : List Operation) (replies : List Reply) (below : List Frame) :
      Move thread world (.rounds 0 body [] replies :: below) world
        (.tidy [] (.all replies.reverse) :: below)
  | again (remaining : ℕ) (body : List Operation) (replies : List Reply) (below : List Frame) :
      Move thread world (.rounds (remaining + 1) body [] replies :: below) world
        (.rounds remaining body body [] :: below)
  | perform (remaining : ℕ) (body : List Operation) (op : Operation) (ops : List Operation)
      (replies : List Reply) (below : List Frame) :
      Move thread world (.rounds remaining body (op :: ops) replies :: below)
        (op.start thread world).1
        ((op.start thread world).2 :: .rounds remaining body ops replies :: below)
  | stress (tally : Stress) (below : List Frame) :
      Move thread world (.stress tally :: below) (tally.step world thread).1
        ((tally.step world thread).2 ++ below)

/-- A payload is changed if its object is mutable at one moment and has a single unit at a later
one. -/
theorem mutate_cases {holder : ℕ} {obj : ObjectId} {payload : Payload} {stateSeen : Bool}
    {below later : List Frame}
    (hstep : step thread world (.mutate holder obj payload stateSeen :: below) =
      some (next, later)) :
    (next = world ∧ later = .tidy [.endUse holder] (.flag false) :: below) ∨
    (∃ object, world.object? obj = some object ∧ Resident.isMutable object.body = true ∧
      stateSeen = false ∧ next = world ∧ later = .mutate holder obj payload true :: below) ∨
    ∃ object, world.object? obj = some object ∧ Resident.count object.body = 1 ∧
      stateSeen = true ∧
      next = (world.modifyObject obj fun object =>
        { object with body := Resident.setPayload object.body payload }) ∧
      later = .tidy [.endUse holder] (.flag true) :: below := by
  cases hobject : world.object? obj with
  | none =>
    simp only [step, hobject] at hstep
    obtain ⟨rfl, rfl⟩ := Prod.mk.inj (Option.some.inj hstep)
    exact .inl ⟨rfl, rfl⟩
  | some object =>
    cases stateSeen with
    | false =>
      by_cases hmutable : Resident.isMutable object.body = true
      · simp only [step, hobject, hmutable] at hstep
        obtain ⟨rfl, rfl⟩ := Prod.mk.inj (Option.some.inj hstep)
        exact .inr (.inl ⟨object, rfl, hmutable, rfl, rfl, rfl⟩)
      · simp only [step, hobject, hmutable] at hstep
        obtain ⟨rfl, rfl⟩ := Prod.mk.inj (Option.some.inj hstep)
        exact .inl ⟨rfl, rfl⟩
    | true =>
      by_cases hcount : Resident.count object.body = 1
      · simp only [step, hobject, hcount] at hstep
        obtain ⟨rfl, rfl⟩ := Prod.mk.inj (Option.some.inj hstep)
        exact .inr (.inr ⟨object, rfl, hcount, rfl, rfl, rfl⟩)
      · simp only [step, hobject, beq_eq_false_iff_ne.mpr hcount] at hstep
        obtain ⟨rfl, rfl⟩ := Prod.mk.inj (Option.some.inj hstep)
        exact .inl ⟨rfl, rfl⟩

/-- Every step is a move. -/
theorem move_of_step (hstep : step thread world agenda = some (next, later)) :
    Move thread world agenda next later := by
  cases agenda with
  | nil => cases hstep
  | cons top below =>
    cases top with
    | call active =>
      obtain ⟨⟨after, frames⟩, hactive, hresult⟩ := Option.map_eq_some_iff.mp hstep
      cases hresult
      exact .call below hactive
    | mutate holder obj payload stateSeen =>
      rcases mutate_cases hstep with ⟨rfl, rfl⟩ | ⟨object, hobject, hmutable, rfl, rfl, rfl⟩ |
        ⟨object, hobject, hsole, rfl, rfl, rfl⟩
      · exact .refuse holder obj payload stateSeen below
      · exact .look holder payload below hobject hmutable
      · exact .write holder payload below hobject hsole
    | tidy chores told =>
      cases chores with
      | nil =>
        cases below with
        | nil => cases hstep
        | cons frame below =>
          cases hstep
          exact .reply told frame below
      | cons chore chores =>
        cases hstep
        exact .chore chore chores told below
    | script owner ops =>
      cases ops with
      | nil =>
        cases hstep
        exact .told owner below
      | cons op ops =>
        cases hstep
        exact .tell owner op ops below
    | surrender owner =>
      rw [step] at hstep
      split at hstep
      · rename_i htake
        cases hstep
        exact .surrendered _ htake
      · rename_i after ref htake
        cases hstep
        exact .surrender below htake
    | rounds remaining body ops replies =>
      cases ops with
      | nil =>
        cases remaining with
        | zero =>
          cases hstep
          exact .ended body replies below
        | succ remaining =>
          cases hstep
          exact .again remaining body replies below
      | cons op ops =>
        rw [step] at hstep
        cases hstep
        exact .perform remaining body op ops replies below
    | race contest => cases hstep
    | stress tally =>
      cases hstep
      exact .stress tally below

end SharedCell.Frame
