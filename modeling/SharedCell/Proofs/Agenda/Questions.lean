import Mathlib
import SharedCell.Proofs.Solo.Arguments

/-!
# Questions to guards

A guard is asked about an object, and whatever asks it goes by the answer: a check tells it, and an
attempt to share the object ends with an error if the object is rejected.  An empty reference is
admitted without a question.  The question and the rejection are logged, and nothing else of the
world changes.
-/

namespace SharedCell

variable {β : Type} [Resident β] {world : World β} {thread : ℕ} {guard : Guard} {obj : ObjectId}
  {unit : Option ObjectId}

/-- The guard that an argument stands for. -/
def GuardArg.guard? : GuardArg → Option Guard
  | .absent => some .standard
  | .given guard => some guard
  | .malformed => none

/-- Whether a guard lets a reference pass. -/
def Guard.admits (guard : Guard) (facts : ObjectId → Facts) (unit : Option ObjectId) : Bool :=
  unit.all fun obj => guard.accepts (facts obj)

theorem Guard.admits_eq_true {facts : ObjectId → Facts} : guard.admits facts unit = true ↔
    ∀ obj, unit = some obj → guard.accepts (facts obj) = true := by
  cases unit <;> simp [admits]

namespace World

/-- The world in which a guard was asked about an object. -/
def questioned (world : World β) (thread : ℕ) (guard : Guard) (obj : ObjectId) : World β :=
  { world with
    log := (if guard.reported then [(thread, .asked obj)] else []) ++ world.log }

/-- The world in which a guard was asked about a reference. -/
def consulted (world : World β) (thread : ℕ) (guard : Guard) : Option ObjectId → World β
  | some obj => world.questioned thread guard obj
  | none => world

/-- The world in which a guard was asked about an object and has rejected it. -/
def refused (world : World β) (thread : ℕ) (guard : Guard) (obj : ObjectId) : World β :=
  (world.questioned thread guard obj).record thread (.rejected obj)

variable (htraced : world.traced = true)

include htraced

omit [Resident β] in
theorem trace_eq (thread : ℕ) (event : Event) :
    world.trace thread event = world.record thread event := by
  rw [trace, if_pos htraced]

omit [Resident β] in
theorem ask_eq (thread : ℕ) (guard : Guard) (obj : ObjectId) :
    world.ask thread guard obj = world.questioned thread guard obj := by
  rw [ask, trace_eq htraced, questioned]
  split <;> rfl

/-- What a call does that is rejected. -/
theorem undergo_refused (guard : Guard) (obj : ObjectId) :
    world.undergo guard [.ask obj, .reject obj] = world.refused 0 guard obj := by
  have hquestioned : (world.questioned 0 guard obj).traced = true := htraced
  simp only [undergo, List.foldl_cons, List.foldl_nil, Call.apply, ask_eq htraced,
    trace_eq hquestioned]
  rfl

end World

namespace Operation

open Attempt World

variable (htraced : world.traced = true)

include htraced

theorem consult_eq (thread : ℕ) (guard : Guard) (unit : Option ObjectId) :
    (consult thread guard unit : Attempt β Bool).run world =
      .ok (guard.admits world.facts unit, world.consulted thread guard unit) := by
  cases unit with
  | none => rfl
  | some obj =>
    rw [consulted, ← ask_eq htraced]
    rfl

theorem enforce_refused (hrefuses : guard.accepts (world.facts obj) = false) :
    (enforce thread guard (some obj) : Attempt β (Option ObjectId)).run world =
      .ok (some obj, world.refused thread guard obj) := by
  have hquestioned : (world.questioned thread guard obj).traced = true := htraced
  have hadmits : guard.admits world.facts (some obj) = false := hrefuses
  rw [enforce, run_bind_ok (consult_eq htraced thread guard (some obj)), hadmits, refused,
    ← trace_eq hquestioned]
  rfl

theorem enforce_admitted (hadmits : guard.admits world.facts unit = true) :
    (enforce thread guard unit : Attempt β (Option ObjectId)).run world =
      .ok (none, world.consulted thread guard unit) := by
  rw [enforce, run_bind_ok (consult_eq htraced thread guard unit), hadmits]
  rfl

/-! ## Operations that ask -/

section Asking

variable {value : Arg} {given : GuardArg} (hvalue : world.meaning? value = some unit)
  (hgiven : given.guard? = some guard)

omit [Resident β] htraced in
theorem guardOf_eq (hgiven : given.guard? = some guard) :
    (guardOf given : Attempt β Guard).run world = .ok (guard, world) := by
  cases given <;> cases hgiven <;> rfl

include hvalue hgiven

/-- A check tells what the guard says. -/
theorem start_check (thread : ℕ) : (check value given).start thread world =
    (world.consulted thread guard unit, .tidy [] (.flag (guard.admits world.facts unit))) := by
  obtain ⟨found, hfound, rfl, -⟩ := arg_meaning hvalue
  have hbegin : (begin? thread (check value given)).run world =
      .ok (.tidy [] (.flag (guard.admits world.facts (found.map (·.unit)))),
        world.consulted thread guard (found.map (·.unit))) := by
    rw [begin?, startCheck, run_bind_ok hfound, run_bind_ok (guardOf_eq hgiven),
      run_bind_ok (consult_eq htraced thread guard _)]
    rfl
  rw [start, hbegin]

/-- What the guard rejects cannot be shared. -/
theorem start_ensure_refused (hobj : unit = some obj)
    (hrefuses : guard.accepts (world.facts obj) = false) (thread : ℕ) :
    (ensure value given).start thread world =
      (world.refused thread guard obj, .tidy [] (.fault (.unshareable obj))) := by
  obtain ⟨found, hfound, rfl, -⟩ := arg_meaning hvalue
  have hbegin : (begin? thread (ensure value given)).run world =
      .ok (.tidy [] (.fault (.unshareable obj)), world.refused thread guard obj) := by
    rw [begin?, startEnsure, run_bind_ok hfound, run_bind_ok (guardOf_eq hgiven), hobj,
      run_bind_ok (enforce_refused htraced hrefuses)]
    rfl
  rw [start, hbegin]

theorem start_ensure_admitted (hadmits : guard.admits world.facts unit = true) (thread : ℕ) :
    (ensure value given).start thread world =
      (world.consulted thread guard unit, .tidy [] .ok) := by
  obtain ⟨found, hfound, rfl, -⟩ := arg_meaning hvalue
  have hbegin : (begin? thread (ensure value given)).run world =
      .ok (.tidy [] .ok, world.consulted thread guard (found.map (·.unit))) := by
    rw [begin?, startEnsure, run_bind_ok hfound, run_bind_ok (guardOf_eq hgiven),
      run_bind_ok (enforce_admitted htraced hadmits)]
    rfl
  rw [start, hbegin]

variable {name : String} {source : Option String} (hfree : world.cell? name = none)

omit [Resident β] htraced hvalue hgiven in
theorem newCellName_eq (hfree : world.cell? name = none) :
    (newCellName (some name) : Attempt β String).run world = .ok (name, world) := by
  refine run_bind.mpr ⟨name, world, rfl, run_bind.mpr ⟨world, world, rfl, ?_⟩⟩
  rw [hfree]
  rfl

include hfree

/-- An atomic cell is not made with a content that its guard rejects. -/
theorem start_newCell_refused (hobj : unit = some obj)
    (hrefuses : guard.accepts (world.facts obj) = false) (thread : ℕ) :
    (newCell (some name) given value (some (some .atomic)) (some .value) source).start thread world =
      (world.refused thread guard obj, .tidy [] (.fault (.unshareable obj))) := by
  obtain ⟨found, hfound, rfl, -⟩ := arg_meaning hvalue
  have hbegin : (begin? thread
      (newCell (some name) given value (some (some .atomic)) (some .value) source)).run world =
      .ok (.tidy [] (.fault (.unshareable obj)), world.refused thread guard obj) := by
    rw [begin?, startNewCell, run_bind_ok (newCellName_eq hfree),
      run_bind_ok (guardOf_eq hgiven), run_bind_ok hfound, hobj]
    refine run_bind.mpr ⟨some .atomic, world, rfl, ?_⟩
    exact run_bind.mpr ⟨some obj, _, enforce_refused htraced hrefuses, rfl⟩
  rw [start, hbegin]

/-- It is made with what its guard admits. -/
theorem start_newCell_admitted (hadmits : guard.admits world.facts unit = true) (thread : ℕ) :
    (newCell (some name) given value (some (some .atomic)) (some .value) source).start thread world =
      (((world.consulted thread guard unit).acquireAll thread unit.toList).addCell name
        { kind := .atomic, guard, slot := { content := unit } }, .tidy [] .ok) := by
  obtain ⟨found, hfound, rfl, -⟩ := arg_meaning hvalue
  have hbegin : (begin? thread
      (newCell (some name) given value (some (some .atomic)) (some .value) source)).run world =
      .ok (.tidy [] .ok, ((world.consulted thread guard (found.map (·.unit))).acquireAll thread
        (found.map (·.unit)).toList).addCell name
          { kind := .atomic, guard, slot := { content := found.map (·.unit) } }) := by
    rw [begin?, startNewCell, run_bind_ok (newCellName_eq hfree),
      run_bind_ok (guardOf_eq hgiven), run_bind_ok hfound]
    refine run_bind.mpr ⟨some .atomic, world, rfl, ?_⟩
    refine run_bind.mpr ⟨none, _, enforce_admitted htraced hadmits, ?_⟩
    refine run_bind.mpr ⟨(), _, ?_, rfl⟩
    cases found <;> rfl
  rw [start, hbegin]

end Asking

omit [Resident β] htraced in
theorem handle_meaning {name : String} (hmeaning : world.meaning? (.named name) = some (some obj)) :
    ∃ holder, (handle (some name) : Attempt β Holder).run world = .ok (holder, world) ∧
      holder.unit = obj := by
  obtain ⟨holder, hholder, hunit⟩ := Option.map_eq_some_iff.mp hmeaning
  obtain ⟨hfound, hshared⟩ := Option.filter_eq_some_iff.mp hholder
  have hfree : holder.exclusive = false := by simpa using hshared
  refine ⟨holder, ?_, Option.some.inj hunit⟩
  refine run_bind.mpr ⟨name, world, rfl, run_bind.mpr ⟨world, world, rfl, ?_⟩⟩
  rw [hfound]
  simp only [hfree]
  rfl

/-- Two errors are equal if and only if they are about the same object. -/
theorem start_compareErrors {left right : String} {first second : ObjectId}
    (hleft : world.meaning? (.named left) = some (some first))
    (hright : world.meaning? (.named right) = some (some second))
    (hfirst : Guard.standard.accepts (world.facts first) = false)
    (hsecond : Guard.standard.accepts (world.facts second) = false) (thread : ℕ) :
    (compareErrors (some left) (some right)).start thread world =
      ((world.refused thread .standard first).refused thread .standard second,
        .tidy [] (.errors (first == second) true)) := by
  obtain ⟨one, hone, rfl⟩ := handle_meaning hleft
  obtain ⟨two, htwo, rfl⟩ := handle_meaning hright
  have hlater : (world.refused thread .standard one.unit).traced = true := htraced
  have hbegin : (begin? thread (compareErrors (some left) (some right))).run world =
      .ok (.tidy [] (.errors (one.unit == two.unit) true),
        (world.refused thread .standard one.unit).refused thread .standard two.unit) := by
    rw [begin?, startCompareErrors, run_bind_ok hone, run_bind_ok htwo,
      run_bind_ok (enforce_refused htraced hfirst), run_bind_ok (enforce_refused hlater hsecond)]
    simp only [beq_self_eq_true]
    rfl
  rw [start, hbegin]

end Operation

end SharedCell
