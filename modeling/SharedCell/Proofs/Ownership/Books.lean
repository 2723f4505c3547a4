import Mathlib
import SharedCell.Proofs.Heap.Lawful
import SharedCell.World

/-!
# Books

The books of a heap compare what objects count with the units that there are.  A counted object has
as many units as it counts and is destroyed if there are none; a permanent object counts nothing and
is never destroyed.  The log tells of acquisitions and releases, and none of them comes after the
destruction of its object.
-/

namespace SharedCell

variable {β : Type} [Resident β]

namespace Object

/-- An object that there are this many units on. -/
def Squares (object : Object β) (units : ℕ) : Prop :=
  if Counted.isPermanent object.body then
    Resident.count object.body = 0 ∧ object.destroyed = false
  else
    Resident.count object.body = units ∧ (object.destroyed = true ↔ units = 0)

/-- The object after one unit more was acquired on it. -/
def acquired (object : Object β) : Object β :=
  { object with body := Counted.acquire object.body }

/-- The object after a unit on it was released. -/
def released (object : Object β) : Object β :=
  { object with
    body := (Counted.release object.body).1
    destroyed := object.destroyed || (Counted.release object.body).2 }

variable {object : Object β} {units : ℕ}

theorem squares_permanent (hpermanent : Counted.isPermanent object.body = true) :
    object.Squares units ↔ Resident.count object.body = 0 ∧ object.destroyed = false := by
  rw [Squares, if_pos hpermanent]

theorem squares_counted (hcounted : Counted.isPermanent object.body = false) :
    object.Squares units ↔
      Resident.count object.body = units ∧ (object.destroyed = true ↔ units = 0) := by
  rw [Squares, if_neg (by simp [hcounted])]

/-- Nothing but count, permanence and destruction matters. -/
theorem Squares.congr {other : Object β} (hsquares : object.Squares units)
    (hcount : Resident.count other.body = Resident.count object.body)
    (hpermanent : Counted.isPermanent other.body = Counted.isPermanent object.body)
    (hdestroyed : other.destroyed = object.destroyed) : other.Squares units := by
  rw [Squares, hcount, hpermanent, hdestroyed]
  exact hsquares

variable [Lawful β]

theorem Squares.acquired (hsquares : object.Squares units) (hpos : 0 < units) :
    object.acquired.Squares (units + 1) := by
  cases hpermanent : Counted.isPermanent object.body with
  | true =>
    rw [squares_permanent hpermanent] at hsquares
    rw [squares_permanent (by simp [Object.acquired, hpermanent]), Object.acquired,
      Lawful.acquire_permanent _ hpermanent]
    exact hsquares
  | false =>
    rw [squares_counted hpermanent] at hsquares
    rw [squares_counted (by simp [Object.acquired, hpermanent]), Object.acquired,
      Lawful.count_acquire _ hpermanent, hsquares.1, hsquares.2]
    constructor
    · push_cast
      rfl
    · omega

theorem Squares.released (hsquares : object.Squares (units + 1)) :
    object.released.Squares units := by
  cases hpermanent : Counted.isPermanent object.body with
  | true =>
    rw [squares_permanent hpermanent] at hsquares
    rw [squares_permanent (by simp [Object.released, hpermanent]), Object.released,
      Lawful.release_permanent _ hpermanent, Bool.or_false]
    exact hsquares
  | false =>
    rw [squares_counted hpermanent] at hsquares
    obtain ⟨hcount, hdestroyed⟩ := hsquares
    have hpos : 1 ≤ Resident.count object.body := by
      rw [hcount]
      push_cast
      omega
    have hlast := Lawful.last_release _ hpermanent hpos
    rw [squares_counted (by simp [Object.released, hpermanent]), Object.released,
      Lawful.count_release _ hpermanent hpos, Bool.or_eq_true, hdestroyed, hlast, hcount]
    constructor
    · push_cast
      ring
    · push_cast
      simp

/-- The last unit is noticed. -/
theorem Squares.last (hsquares : object.Squares (units + 1)) :
    (Counted.release object.body).2 = true ↔
      Counted.isPermanent object.body = false ∧ units = 0 := by
  cases hpermanent : Counted.isPermanent object.body with
  | true => simp [Lawful.release_permanent _ hpermanent]
  | false =>
    rw [squares_counted hpermanent] at hsquares
    have hpos : 1 ≤ Resident.count object.body := by
      rw [hsquares.1]
      push_cast
      omega
    rw [Lawful.last_release _ hpermanent hpos, hsquares.1]
    push_cast
    simp

omit [Lawful β] in
/-- An object that counts one unit has no other. -/
theorem Squares.single (hsquares : object.Squares (units + 1))
    (hcount : Resident.count object.body = 1) :
    Counted.isPermanent object.body = false ∧ units = 0 := by
  cases hpermanent : Counted.isPermanent object.body with
  | true =>
    rw [((squares_permanent hpermanent).mp hsquares).1] at hcount
    cases hcount
  | false =>
    rw [((squares_counted hpermanent).mp hsquares).1] at hcount
    exact ⟨rfl, Nat.succ.inj (by exact_mod_cast hcount)⟩

end Object

/-- The objects that a log tells the destruction of. -/
def destroyedIn (log : List (ℕ × Event)) : List ObjectId :=
  log.filterMap (·.2.destroyed?)

/-- What is logged of guards and calls. -/
def Event.Quiet : Event → Prop
  | .asked _ | .rejected _ | .retried .. | .waited .. => True
  | _ => False

/-- A log, the last event first, in which an object is destroyed by the release that found its last
unit, directly after it, and nothing is acquired or released on it afterwards. -/
def Orderly : List (ℕ × Event) → Prop
  | [] => True
  | (thread, event) :: earlier =>
      Orderly earlier ∧
        (∀ other obj before, earlier = (other, .released obj 1) :: before →
          (thread, event) = (other, .destroyed obj)) ∧
        match event with
        | .acquired obj _ | .released obj _ => obj ∉ destroyedIn earlier
        | .destroyed obj =>
            obj ∉ destroyedIn earlier ∧ ∃ before, earlier = (thread, .released obj 1) :: before
        | _ => True

namespace Orderly

variable {later log : List (ℕ × Event)} {thread : ℕ} {obj : ObjectId}

/-- What was logged later does not matter. -/
theorem suffix (horderly : Orderly (later ++ log)) : Orderly log := by
  induction later with
  | nil => exact horderly
  | cons entry later ih => exact ih horderly.1

theorem nodup_destroyedIn (horderly : Orderly log) : (destroyedIn log).Nodup := by
  induction log with
  | nil => exact List.nodup_nil
  | cons entry log ih =>
    obtain ⟨thread, event⟩ := entry
    obtain ⟨hearlier, -, hevent⟩ := horderly
    cases event with
    | destroyed obj => exact List.nodup_cons.mpr ⟨hevent.1, ih hearlier⟩
    | _ => exact ih hearlier

/-- The event after a release that found the last unit is the destruction. -/
theorem noticed (horderly : Orderly (later ++ (thread, .released obj 1) :: log))
    (hlater : later ≠ []) : ∃ after, later = after ++ [(thread, .destroyed obj)] := by
  induction later with
  | nil => exact absurd rfl hlater
  | cons entry later ih =>
    obtain ⟨other, event⟩ := entry
    by_cases hnone : later = []
    · subst hnone
      rw [horderly.2.1 thread obj log rfl]
      exact ⟨[], rfl⟩
    · obtain ⟨after, rfl⟩ := ih horderly.1 hnone
      exact ⟨(other, event) :: after, rfl⟩

end Orderly

/-- An orderly log that does not break off before a destruction. -/
structure Chronicle (log : List (ℕ × Event)) : Prop where
  orderly : Orderly log
  settled : ∀ thread obj before, log ≠ (thread, .released obj 1) :: before

namespace Chronicle

variable {log : List (ℕ × Event)} {thread : ℕ}

theorem empty : Chronicle [] :=
  ⟨trivial, by simp⟩

/-- Nothing is due when an event is added to a chronicle. -/
theorem due (hlog : Chronicle log) (event : Event) :
    ∀ other obj before, log = (other, .released obj 1) :: before →
      (thread, event) = (other, .destroyed obj) :=
  fun other obj before heq => (hlog.settled other obj before heq).elim

theorem remarked {event : Event} (hlog : Chronicle log) (hquiet : event.Quiet) :
    Chronicle ((thread, event) :: log) := by
  cases event with
  | asked | rejected | retried | waited => exact ⟨⟨hlog.orderly, hlog.due _, trivial⟩, by simp⟩
  | _ => exact hquiet.elim

theorem acquired {obj : ObjectId} {count : ℤ} (hlog : Chronicle log)
    (halive : obj ∉ destroyedIn log) : Chronicle ((thread, .acquired obj count) :: log) :=
  ⟨⟨hlog.orderly, hlog.due _, halive⟩, by simp⟩

theorem released {obj : ObjectId} {count : ℤ} (hlog : Chronicle log)
    (halive : obj ∉ destroyedIn log) (hmore : count ≠ 1) :
    Chronicle ((thread, .released obj count) :: log) := by
  refine ⟨⟨hlog.orderly, hlog.due _, halive⟩, ?_⟩
  intro other last before heq
  simp only [List.cons.injEq, Prod.mk.injEq, Event.released.injEq] at heq
  exact hmore heq.1.2.2

theorem destroyed {obj : ObjectId} (hlog : Chronicle log) (halive : obj ∉ destroyedIn log) :
    Chronicle ((thread, .destroyed obj) :: (thread, .released obj 1) :: log) := by
  refine ⟨⟨⟨hlog.orderly, hlog.due _, halive⟩, ?_, halive, log, rfl⟩, by simp⟩
  intro other last before heq
  simp only [List.cons.injEq, Prod.mk.injEq, Event.released.injEq] at heq
  rw [heq.1.1, heq.1.2.1]

end Chronicle

/-- The books of a heap with a log, given all units that there are. -/
structure Books (objects : Array (Object β)) (log : List (ℕ × Event))
    (total : Multiset ObjectId) : Prop where
  known : ∀ obj ∈ total, obj < objects.size
  squares : ∀ obj (object : Object β), objects[obj]? = some object →
    object.Squares (total.count obj)
  chronicle : Chronicle log
  found : ∀ thread obj count,
    (thread, .acquired obj count) ∈ log ∨ (thread, .released obj count) ∈ log →
      ∃ object, objects[obj]? = some object ∧
        (Counted.isPermanent object.body = true ∨ 1 ≤ count)
  destroyed : ∀ obj, obj ∈ destroyedIn log ↔
    ∃ object, objects[obj]? = some object ∧ object.destroyed = true

namespace Books

variable {world : World β} {total : Multiset ObjectId} {obj : ObjectId}

theorem empty : Books (#[] : Array (Object β)) [] 0 where
  known := by simp
  squares := by simp
  chronicle := .empty
  found := by simp
  destroyed := by simp [destroyedIn]

/-- An object that there is a unit on can still be used. -/
theorem live (hbooks : Books world.objects world.log total) (hunit : obj ∈ total) :
    ∃ object, world.objects[obj]? = some object ∧ object.destroyed = false ∧
      (Counted.isPermanent object.body = true ∨ 1 ≤ Resident.count object.body) := by
  obtain ⟨object, hobject⟩ : ∃ object, world.objects[obj]? = some object :=
    ⟨_, Array.getElem?_eq_getElem (hbooks.known obj hunit)⟩
  have hsquares := hbooks.squares obj object hobject
  have hpos := Multiset.count_pos.mpr hunit
  refine ⟨object, hobject, ?_⟩
  cases hpermanent : Counted.isPermanent object.body with
  | true => exact ⟨((Object.squares_permanent hpermanent).mp hsquares).2, .inl rfl⟩
  | false =>
    obtain ⟨hcount, hdestroyed⟩ := (Object.squares_counted hpermanent).mp hsquares
    constructor
    · by_contra hgone
      exact hpos.ne' (hdestroyed.mp (Bool.eq_true_of_not_eq_false hgone))
    · right
      rw [hcount]
      exact_mod_cast hpos

theorem not_destroyed (hbooks : Books world.objects world.log total) (hunit : obj ∈ total) :
    obj ∉ destroyedIn world.log := by
  obtain ⟨object, hobject, hlive, -⟩ := hbooks.live hunit
  rw [hbooks.destroyed]
  rintro ⟨other, hother, hgone⟩
  rw [hobject] at hother
  obtain rfl := Option.some.inj hother
  rw [hlive] at hgone
  cases hgone

omit [Resident β] in
theorem getElem?_modifyObject (world : World β) (obj other : ObjectId)
    (change : Object β → Object β) :
    (world.modifyObject obj change).objects[other]? =
      if obj = other then (world.objects[other]?).map change else world.objects[other]? :=
  Array.getElem?_modify

/-- What is to be shown when one object changes. -/
theorem revise {object : Object β} {change : Object β → Object β} {log : List (ℕ × Event)}
    {after : Multiset ObjectId} (hbooks : Books world.objects world.log total)
    (hobject : world.objects[obj]? = some object)
    (hothers : ∀ other, other ≠ obj → after.count other = total.count other)
    (hsquares : (change object).Squares (after.count obj))
    (hpermanent : Counted.isPermanent (change object).body = Counted.isPermanent object.body)
    (hchronicle : Chronicle log)
    (hfound : ∀ thread other count,
      (thread, .acquired other count) ∈ log ∨ (thread, .released other count) ∈ log →
        ((thread, .acquired other count) ∈ world.log ∨
          (thread, .released other count) ∈ world.log) ∨
        other = obj ∧ (Counted.isPermanent object.body = true ∨ 1 ≤ count))
    (hgone : ∀ other, other ≠ obj → (other ∈ destroyedIn log ↔ other ∈ destroyedIn world.log))
    (hdestroyed : obj ∈ destroyedIn log ↔ (change object).destroyed = true) :
    Books (world.modifyObject obj change).objects log after := by
  have hsame : (world.modifyObject obj change).objects[obj]? = some (change object) := by
    rw [getElem?_modifyObject, if_pos rfl, hobject, Option.map_some]
  have hother (other : ObjectId) (hne : other ≠ obj) :
      (world.modifyObject obj change).objects[other]? = world.objects[other]? := by
    rw [getElem?_modifyObject, if_neg hne.symm]
  constructor
  case known =>
    intro other hmem
    have hsize : (world.modifyObject obj change).objects.size = world.objects.size :=
      Array.size_modify
    rw [hsize]
    by_cases hne : other = obj
    · rw [hne]
      exact (Array.getElem?_eq_some_iff.mp hobject).1
    · apply hbooks.known other
      rw [← Multiset.count_pos, ← hothers other hne]
      exact Multiset.count_pos.mpr hmem
  case squares =>
    intro other present hpresent
    by_cases hne : other = obj
    · subst hne
      rw [hsame] at hpresent
      exact Option.some.inj hpresent ▸ hsquares
    · rw [hother other hne] at hpresent
      exact hothers other hne ▸ hbooks.squares other present hpresent
  case chronicle => exact hchronicle
  case found =>
    intro thread other count hmem
    rcases hfound thread other count hmem with hbefore | ⟨rfl, hcount⟩
    · obtain ⟨present, hpresent, hcount⟩ := hbooks.found thread other count hbefore
      by_cases hne : other = obj
      · subst hne
        rw [hobject] at hpresent
        obtain rfl := Option.some.inj hpresent
        exact ⟨_, hsame, hpermanent.symm ▸ hcount⟩
      · exact ⟨present, (hother other hne).symm ▸ hpresent, hcount⟩
    · exact ⟨_, hsame, hpermanent.symm ▸ hcount⟩
  case destroyed =>
    intro other
    by_cases hne : other = obj
    · rw [hne, hdestroyed, hsame]
      simp
    · rw [hgone other hne, hbooks.destroyed, hother other hne]

/-- Changes that do not concern units. -/
theorem change {change : Object β → Object β} (hbooks : Books world.objects world.log total)
    (hcount : ∀ object, Resident.count (change object).body = Resident.count object.body)
    (hpermanent : ∀ object,
      Counted.isPermanent (change object).body = Counted.isPermanent object.body)
    (hdestroyed : ∀ object, (change object).destroyed = object.destroyed) :
    Books (world.modifyObject obj change).objects world.log total := by
  cases hobject : world.objects[obj]? with
  | none =>
    have hsame : (world.modifyObject obj change).objects = world.objects := by
      apply Array.ext_getElem?
      intro other
      rw [getElem?_modifyObject]
      split
      · rename_i heq
        rw [← heq, hobject]
        rfl
      · rfl
    rwa [hsame]
  | some object =>
    refine hbooks.revise hobject (fun _ _ => rfl) ?_ (hpermanent object) hbooks.chronicle
      (fun _ _ _ hmem => .inl hmem) (fun _ _ => Iff.rfl) ?_
    · exact (hbooks.squares obj object hobject).congr (hcount object) (hpermanent object)
        (hdestroyed object)
    · rw [hbooks.destroyed, hobject, hdestroyed]
      simp

/-- Things that happen to guards and calls. -/
theorem remark {thread : ℕ} {event : Event} (hbooks : Books world.objects world.log total)
    (hquiet : event.Quiet) : Books world.objects ((thread, event) :: world.log) total where
  known := hbooks.known
  squares := hbooks.squares
  chronicle := hbooks.chronicle.remarked hquiet
  found thread' obj count hmem := by
    apply hbooks.found thread' obj count
    cases event with
    | asked | rejected | retried | waited => simpa using hmem
    | _ => exact hquiet.elim
  destroyed := by
    cases event with
    | asked | rejected | retried | waited => exact hbooks.destroyed
    | _ => exact hquiet.elim

/-- A new object comes with its first unit. -/
theorem push {object : Object β} (hbooks : Books world.objects world.log total)
    (hsquares : object.Squares 1) (hlive : object.destroyed = false) :
    Books (world.addObject object).1.objects world.log (world.objects.size ::ₘ total) := by
  have hfresh : world.objects.size ∉ total :=
    fun hmem => (hbooks.known _ hmem).ne rfl
  have hkeep : ∀ (obj : ObjectId) (found : Object β), world.objects[obj]? = some found →
      (world.objects.push object)[obj]? = some found := by
    intro obj found hfound
    have hlt := (Array.getElem?_eq_some_iff.mp hfound).1
    rwa [Array.getElem?_push, if_neg hlt.ne]
  constructor
  case known =>
    intro obj hmem
    rw [World.addObject, Array.size_push]
    rcases Multiset.mem_cons.mp hmem with rfl | hmem
    · exact Nat.lt_succ_self _
    · exact Nat.lt_succ_of_lt (hbooks.known obj hmem)
  case squares =>
    intro obj found hfound
    rw [World.addObject, Array.getElem?_push] at hfound
    split at hfound
    · rename_i heq
      obtain rfl := Option.some.inj hfound
      rw [heq, Multiset.count_cons_self, Multiset.count_eq_zero_of_notMem hfresh]
      exact hsquares
    · rename_i hne
      rw [Multiset.count_cons_of_ne hne]
      exact hbooks.squares obj found hfound
  case chronicle => exact hbooks.chronicle
  case found =>
    intro thread obj count hmem
    obtain ⟨found, hfound, hcount⟩ := hbooks.found thread obj count hmem
    exact ⟨found, hkeep obj found hfound, hcount⟩
  case destroyed =>
    intro obj
    rw [hbooks.destroyed]
    constructor
    · rintro ⟨found, hfound, hgone⟩
      exact ⟨found, hkeep obj found hfound, hgone⟩
    · rintro ⟨found, hfound, hgone⟩
      rw [World.addObject, Array.getElem?_push] at hfound
      split at hfound
      · obtain rfl := Option.some.inj hfound
        rw [hlive] at hgone
        cases hgone
      · exact ⟨found, hfound, hgone⟩

theorem isLast_eq {object : Object β} (hobject : world.objects[obj]? = some object) :
    world.isLast obj = (Counted.release object.body).2 := by
  rw [World.isLast, World.object?, hobject]

theorem log_release (world : World β) (thread : ℕ) (obj : ObjectId) :
    (world.release thread obj).log =
      (if world.isLast obj then [(thread, .destroyed obj)] else []) ++
        (thread, .released obj (world.count obj)) :: world.log := by
  rw [World.release]
  split <;> simp_all [World.record, World.modifyObject]

variable [Lawful β]

theorem acquire (hbooks : Books world.objects world.log total) (hunit : obj ∈ total)
    (thread : ℕ) :
    Books (world.acquire thread obj).objects (world.acquire thread obj).log (obj ::ₘ total) := by
  obtain ⟨object, hobject, hlive, hcount⟩ := hbooks.live hunit
  have hfound : world.count obj = Resident.count object.body := by
    rw [World.count, World.object?, hobject]
  have hgone := hbooks.not_destroyed hunit
  change Books (world.modifyObject obj Object.acquired).objects _ _
  refine hbooks.revise hobject ?_ ?_ ?_ ?_ ?_ ?_ ?_
  · intro other hne
    exact Multiset.count_cons_of_ne hne total
  · rw [Multiset.count_cons_self]
    exact (hbooks.squares obj object hobject).acquired (Multiset.count_pos.mpr hunit)
  · simp [Object.acquired]
  · exact hbooks.chronicle.acquired hgone
  · intro thread' other count hmem
    simp only [World.acquire, World.record, List.mem_cons, Prod.mk.injEq, Event.acquired.injEq,
      reduceCtorEq, and_false, false_or] at hmem
    rcases hmem with (⟨-, rfl, rfl⟩ | hmem) | hmem
    · exact .inr ⟨rfl, hfound ▸ hcount⟩
    · exact .inl (.inl hmem)
    · exact .inl (.inr hmem)
  · intro other hne
    rfl
  · exact iff_of_false hgone (by simp [Object.acquired, hlive])

theorem release (hbooks : Books world.objects world.log (obj ::ₘ total)) (thread : ℕ) :
    Books (world.release thread obj).objects (world.release thread obj).log total := by
  obtain ⟨object, hobject, hlive, hcount⟩ := hbooks.live (Multiset.mem_cons_self obj total)
  have hfound : world.count obj = Resident.count object.body := by
    rw [World.count, World.object?, hobject]
  have hgone := hbooks.not_destroyed (Multiset.mem_cons_self obj total)
  have hlast := isLast_eq hobject
  have hsquares := hbooks.squares obj object hobject
  rw [Multiset.count_cons_self] at hsquares
  have hone : world.isLast obj = true → Resident.count object.body = 1 := by
    intro hend
    obtain ⟨hcounted, hnone⟩ := hsquares.last.mp (hlast ▸ hend)
    rw [((Object.squares_counted hcounted).mp hsquares).1, hnone]
    rfl
  let change (object : Object β) : Object β :=
    { object with
      body := (Counted.release object.body).1
      destroyed := object.destroyed || world.isLast obj }
  have hreleased : change object = object.released := by
    simp only [change, hlast, Object.released]
  have hobjects : (world.release thread obj).objects =
      (world.modifyObject obj change).objects := by
    rw [World.release]
    split <;> rfl
  rw [log_release, hobjects]
  refine hbooks.revise hobject ?_ ?_ ?_ ?_ ?_ ?_ ?_
  · intro other hne
    exact (Multiset.count_cons_of_ne hne total).symm
  · rw [hreleased]
    exact hsquares.released
  · simp [change]
  · split
    · rename_i hend
      rw [hfound, hone hend]
      exact hbooks.chronicle.destroyed hgone
    · rename_i hend
      refine hbooks.chronicle.released hgone fun hcount => hend ?_
      rw [hlast, hsquares.last]
      exact hsquares.single (hfound ▸ hcount)
  · intro thread' other count hmem
    have hevent : ((thread', .acquired other count) ∈ world.log ∨
        (thread', .released other count) ∈ world.log) ∨ other = obj ∧ count = world.count obj := by
      split at hmem <;> simp at hmem <;> tauto
    rcases hevent with hbefore | ⟨rfl, rfl⟩
    · exact .inl hbefore
    · exact .inr ⟨rfl, hfound ▸ hcount⟩
  · intro other hne
    split
    · simpa [destroyedIn, Event.destroyed?] using fun heq => absurd heq hne
    · rfl
  · rw [hreleased, Object.released, ← hlast]
    split
    · rename_i hend
      simp [destroyedIn, Event.destroyed?, hend]
    · rename_i hend
      exact iff_of_false hgone (by simp [hlive, hend])

end Books

end SharedCell
