import Mathlib
import SharedCell.Proofs.Agenda.StartChanges
import SharedCell.Proofs.Ownership.Step

/-!
# Persistence of objects

An object stays where it is and keeps its name.  It is permanent for ever or never, it stays frozen
once it is, and it stays destroyed.  No step of any operation breaks this, since all that operations
do to objects is to count units, to freeze, to change payloads and to give up references.  Payloads
change through exclusive access only, and every other step leaves alone the objects that nobody is
in a position to acquire or to freeze.
-/

namespace SharedCell

open Operation

variable {β : Type} [Resident β]

/-- What an object keeps. -/
structure Object.Persists (object later : Object β) : Prop where
  name : later.name = object.name
  permanent : Counted.isPermanent later.body = Counted.isPermanent object.body
  frozen : Counted.isFrozen object.body = true → Counted.isFrozen later.body = true
  destroyed : object.destroyed = true → later.destroyed = true

theorem Object.Persists.refl (object : Object β) : object.Persists object :=
  ⟨rfl, rfl, id, id⟩

theorem Object.Persists.trans {object later last : Object β} (hfirst : object.Persists later)
    (hsecond : later.Persists last) : object.Persists last where
  name := hsecond.name.trans hfirst.name
  permanent := hsecond.permanent.trans hfirst.permanent
  frozen := hsecond.frozen ∘ hfirst.frozen
  destroyed := hsecond.destroyed ∘ hfirst.destroyed

/-- What an object keeps while its payload does.  One that is spared is neither acquired nor frozen:
if it counts a single unit, all that can happen to it is that this unit is released. -/
structure Object.Tends (spared : Prop) (object later : Object β) : Prop where
  name : later.name = object.name
  facts : Resident.facts later.body = Resident.facts object.body ∨
    Counted.isPermanent object.body = false ∧
      Resident.facts later.body = { Resident.facts object.body with frozen := true }
  destroyed : object.destroyed = true → later.destroyed = true
  spared : spared → Counted.isPermanent object.body = false → Resident.count object.body = 1 →
    later.body = object.body ∨ later.destroyed = true

namespace Object.Tends

variable {object later last : Object β} {spared : Prop}

theorem permanent (htends : object.Tends spared later) :
    Counted.isPermanent later.body = Counted.isPermanent object.body := by
  rcases htends.facts with hfacts | ⟨-, hfacts⟩
  · exact congrArg Facts.permanent hfacts
  · exact congrArg Facts.permanent hfacts

theorem frozen (htends : object.Tends spared later)
    (hfrozen : Counted.isFrozen object.body = true) :
    Counted.isFrozen later.body = true := by
  rcases htends.facts with hfacts | ⟨-, hfacts⟩
  · exact (congrArg Facts.frozen hfacts).trans hfrozen
  · exact congrArg Facts.frozen hfacts

theorem persists (htends : object.Tends spared later) : object.Persists later :=
  ⟨htends.name, htends.permanent, htends.frozen, htends.destroyed⟩

theorem refl (spared : Prop) (object : Object β) : object.Tends spared object :=
  ⟨rfl, .inl rfl, id, fun _ _ _ => .inl rfl⟩

theorem trans (hfirst : object.Tends spared later) (hsecond : later.Tends spared last) :
    object.Tends spared last where
  name := hsecond.name.trans hfirst.name
  facts := by
    rcases hfirst.facts, hsecond.facts with ⟨hfacts | ⟨hcounted, hfacts⟩, hagain | ⟨hstill, hagain⟩⟩
    · exact .inl (hagain.trans hfacts)
    · exact .inr ⟨hfirst.permanent ▸ hstill, by rw [hagain, hfacts]⟩
    · exact .inr ⟨hcounted, hagain.trans hfacts⟩
    · exact .inr ⟨hcounted, by rw [hagain, hfacts]⟩
  destroyed := hsecond.destroyed ∘ hfirst.destroyed
  spared := by
    intro hspared hcounted hcount
    rcases hfirst.spared hspared hcounted hcount with hsame | hgone
    · exact hsame ▸ hsecond.spared hspared (hsame ▸ hcounted) (hsame ▸ hcount)
    · exact .inr (hsecond.destroyed hgone)

end Object.Tends

namespace World

/-- All objects of a world are still there. -/
def Persists (world next : World β) : Prop :=
  ∀ obj object, world.object? obj = some object →
    ∃ later, next.object? obj = some later ∧ object.Persists later

/-- All objects of a world are still there, with their payloads. -/
def Tends (spared : ObjectId → Prop) (world next : World β) : Prop :=
  ∀ obj object, world.object? obj = some object →
    ∃ later, next.object? obj = some later ∧ object.Tends (spared obj) later

variable {world next last : World β} {obj : ObjectId} {thread : ℕ} {spared : ObjectId → Prop}

namespace Persists

theorem refl (world : World β) : world.Persists world :=
  fun _ object hobject => ⟨object, hobject, .refl object⟩

theorem trans (hfirst : world.Persists next) (hsecond : next.Persists last) :
    world.Persists last := by
  intro obj object hobject
  obtain ⟨later, hlater, hpersists⟩ := hfirst obj object hobject
  obtain ⟨final, hfinal, hagain⟩ := hsecond obj later hlater
  exact ⟨final, hfinal, hpersists.trans hagain⟩

theorem setPayload [Lawful β] (world : World β) (obj : ObjectId) (payload : Payload) :
    world.Persists (world.modifyObject obj fun object =>
      { object with body := Resident.setPayload object.body payload }) := by
  intro other object hobject
  rw [object?] at hobject
  rw [object?, Books.getElem?_modifyObject, hobject]
  split
  · refine ⟨_, rfl, rfl, Lawful.permanent_setPayload object.body payload, ?_, id⟩
    exact fun hfrozen =>
      (congrArg Facts.frozen (Lawful.facts_setPayload object.body payload)).trans hfrozen
  · exact ⟨object, rfl, .refl object⟩

end Persists

namespace Tends

theorem persists (htends : world.Tends spared next) : world.Persists next := by
  intro obj object hobject
  obtain ⟨later, hlater, htended⟩ := htends obj object hobject
  exact ⟨later, hlater, htended.persists⟩

theorem of_objects (hobjects : next.objects = world.objects) : world.Tends spared next := by
  intro obj object hobject
  refine ⟨object, ?_, .refl _ object⟩
  rw [object?, hobjects]
  exact hobject

theorem refl (world : World β) : world.Tends spared world :=
  of_objects rfl

theorem trans (hfirst : world.Tends spared next) (hsecond : next.Tends spared last) :
    world.Tends spared last := by
  intro obj object hobject
  obtain ⟨later, hlater, htends⟩ := hfirst obj object hobject
  obtain ⟨final, hfinal, hagain⟩ := hsecond obj later hlater
  exact ⟨final, hfinal, htends.trans hagain⟩

theorem modifyObject {change : Object β → Object β}
    (hchange : ∀ object, world.object? obj = some object →
      object.Tends (spared obj) (change object)) :
    world.Tends spared (world.modifyObject obj change) := by
  intro other object hobject
  have hplace : world.objects[other]? = some object := hobject
  rw [object?, Books.getElem?_modifyObject, hplace]
  split
  · rename_i hsame
    exact ⟨change object, rfl, hsame ▸ hchange object (hsame ▸ hobject)⟩
  · exact ⟨object, rfl, .refl _ object⟩

theorem addObject (object : Object β) : world.Tends spared (world.addObject object).1 := by
  intro obj found hfound
  have hlt : obj < world.objects.size := (Array.getElem?_eq_some_iff.mp hfound).1
  refine ⟨found, ?_, .refl _ found⟩
  rw [object?, World.addObject, Array.getElem?_push, if_neg hlt.ne]
  exact hfound

theorem trace (world : World β) (thread : ℕ) (event : Event) :
    world.Tends spared (world.trace thread event) := by
  obtain ⟨log, htraced⟩ := world.exists_traced thread event
  rw [htraced]
  exact of_objects rfl

theorem ask (world : World β) (thread : ℕ) (guard : Guard) (obj : ObjectId) :
    world.Tends spared (world.ask thread guard obj) := by
  obtain ⟨log, hasked⟩ := world.exists_asked thread guard obj
  rw [hasked]
  exact of_objects rfl

theorem store (world : World β) (name : String) (unit : ObjectId) :
    world.Tends spared (world.store name unit).1 := by
  obtain ⟨holders, nextHolder, hstored⟩ := world.exists_stored name unit
  rw [hstored]
  exact of_objects rfl

theorem endUse (world : World β) (id : ℕ) : world.Tends spared (world.endUse id).1 := by
  obtain ⟨holders, hended⟩ := world.exists_endUsed id
  rw [hended]
  exact of_objects rfl

variable [Lawful β]

theorem acquire (hspared : ¬ spared obj) (world : World β) (thread : ℕ) :
    world.Tends spared (world.acquire thread obj) :=
  modifyObject fun object _ =>
    ⟨rfl, .inl (Lawful.facts_acquire object.body), id, fun hobj => absurd hobj hspared⟩

/-- The release of a single unit destroys the object. -/
theorem release (world : World β) (thread : ℕ) (obj : ObjectId) :
    world.Tends spared (world.release thread obj) := by
  rw [release_eq]
  refine modifyObject fun object hobject =>
    ⟨rfl, .inl (Lawful.facts_release object.body), ?_, ?_⟩
  · intro hdestroyed
    simp [hdestroyed]
  · intro _ hcounted hcount
    have hlast : world.isLast obj = true := by
      rw [Books.isLast_eq hobject]
      exact (Lawful.last_release object.body hcounted (by rw [hcount])).mpr hcount
    simp [hlast]

theorem freeze (hspared : ¬ spared obj) (world : World β) :
    world.Tends spared (world.modifyObject obj fun object =>
      { object with body := Resident.freeze object.body }) := by
  refine modifyObject fun object _ => ⟨rfl, ?_, id, fun hobj => absurd hobj hspared⟩
  have hfacts := Lawful.facts_freeze object.body
  split at hfacts
  · exact .inl hfacts
  · rename_i hcounted
    exact .inr ⟨Bool.eq_false_iff.mpr hcounted, hfacts⟩

theorem letGo (world : World β) (thread : ℕ) (unit : ObjectId) :
    world.Tends spared (world.letGo thread unit).1 :=
  release world thread unit

theorem letGo? (world : World β) (thread : ℕ) (unit : Option ObjectId) :
    world.Tends spared (world.letGo? thread unit).1 := by
  cases unit with
  | none => exact refl world
  | some unit => exact letGo world thread unit

end Tends

theorem Lax.tends : Lax (Tends spared : World β → World β → Prop) where
  tables := fun hobjects _ => .of_objects hobjects
  use := fun _ _ _ _ => .of_objects rfl
  trans := .trans

end World

/-! ## Beginnings of operations -/

namespace Attempt

variable [Lawful β] {thread : ℕ} {spared : ObjectId → Prop} {world next : World β}
  {frame : Frame}

theorem tends_admits
    (hspared : ∀ holder ∈ world.holders, holder.exclusive = false → ¬ spared holder.unit)
    (op : Operation) : world.Admits thread op (World.Tends spared) where
  lenient := World.Lax.tends.lenient thread
  acquire hholder hshared before := .acquire (hspared _ hholder hshared) before thread
  freeze hholder hshared before := .freeze (hspared _ hholder hshared) before
  make _ _ _ _ _ := .of_objects rfl
  erase _ _ := .of_objects rfl

theorem alloc_tends {object : Option String} {value : Option Payload}
    {mutability : Option Mutability} {refs : List (Option String)} {script : List Operation}
    (hspared : ∀ holder ∈ world.holders, holder.exclusive = false → ¬ spared holder.unit)
    (hrun : (startAlloc thread object value mutability refs script : Attempt β Frame).run world =
      .ok (frame, next)) : world.Tends spared next := by
  have hgathered : world.Tends spared (gather thread refs world).1 :=
    gather_relates (tends_admits hspared (.alloc object value mutability refs script)) refs
  rcases alloc_run hrun with
    ⟨fault, -, rfl⟩ | ⟨name, mutability, payload, body, -, added, obj, hadd, -, rfl⟩
  · exact hgathered
  · obtain ⟨rfl, rfl⟩ := Prod.mk.inj hadd
    exact hgathered.trans ((World.Tends.addObject _).trans (.of_objects rfl))

/-- An operation acquires and freezes nothing but objects of handles that can be used. -/
theorem begin_tends {op : Operation} (hordinary : op.ordinary = true)
    (hspared : ∀ holder ∈ world.holders, holder.exclusive = false → ¬ spared holder.unit)
    (hrun : (begin? thread op).run world = .ok (frame, next)) : world.Tends spared next := by
  cases op with
  | alloc object value mutability refs script => exact alloc_tends hspared hrun
  | race | stress => exact absurd hordinary (by simp [Operation.ordinary])
  | _ => exact begin_relates hordinary rfl (tends_admits hspared _) hrun

end Attempt

/-! ## Steps -/

/-- The next step of the call acquires a unit on the object. -/
def Call.Acquires (world : World β) (call : Call) (obj : ObjectId) : Prop :=
  ∃ cell slot stage, world.cell? call.cell = some cell ∧
    call.stage.step cell.kind cell.guard call.action world.facts world.shape cell.slot =
      some (slot, stage, some (.acquire obj))

namespace World.Tends

variable {world next : World β} {thread : ℕ} {call : Call} {frames : List Frame}
  {spared : ObjectId → Prop}

theorem settle (world : World β) (call : Call) (outcome : Outcome) :
    world.Tends spared (call.settle world outcome).1 := by
  obtain ⟨cells, hsettled⟩ := call.exists_settled world outcome
  rw [hsettled]
  exact of_objects rfl

theorem takeRef {owner ref : ObjectId} (htake : world.takeRef owner = some (next, ref)) :
    world.Tends spared next := by
  obtain ⟨object, refs, -, -, rfl⟩ := World.takeRef_eq_some htake
  exact modifyObject fun object _ => ⟨rfl, .inl rfl, id, fun _ _ _ => .inl rfl⟩

variable [Lawful β]

theorem start {op : Operation} (hordinary : op.ordinary = true)
    (hspared : ∀ holder ∈ world.holders, holder.exclusive = false → ¬ spared holder.unit) :
    world.Tends spared (op.start thread world).1 := by
  unfold Operation.start
  split
  · rename_i frame next hrun
    exact Attempt.begin_tends hordinary hspared hrun
  · exact refl world

theorem perform {chore : Chore} (hordinary : chore.ordinary = true) :
    world.Tends spared (chore.perform thread world).1 := by
  cases chore with
  | release unit => exact letGo world thread unit
  | store name unit => exact (store world name unit).trans (letGo? _ thread _)
  | endUse holder => exact (endUse world holder).trans (letGo? _ thread _)
  | leaveCell cell => exact of_objects rfl
  | join => cases hordinary
  | resume => cases hordinary

theorem affect (world : World β) (thread : ℕ) (guard : Guard) {effect : Option Effect}
    (hspared : ∀ obj, effect = some (.acquire obj) → ¬ spared obj) :
    world.Tends spared (Call.affect world thread guard effect).1 := by
  cases effect with
  | none => exact refl world
  | some effect =>
    cases effect with
    | acquire obj => exact acquire (hspared obj rfl) world thread
    | release obj => exact letGo world thread obj
    | ask obj => exact ask world thread guard obj
    | reject obj => exact trace world thread _
    | retry | wait => exact trace world thread _

theorem callStep (hspared : ∀ obj, call.Acquires world obj → ¬ spared obj)
    (hstep : call.step world thread = some (next, frames)) : world.Tends spared next := by
  rcases Call.step_cases hstep with
    ⟨outcome, -, rfl, -⟩ | ⟨cell, slot, stage, effect, hcell, hstage, rfl, -⟩
  · exact settle world call outcome
  · have hmoved : world.Tends spared (world.modifyCell call.cell ({ · with slot })) :=
      of_objects rfl
    refine hmoved.trans (affect _ thread cell.guard ?_)
    rintro obj rfl
    exact hspared obj ⟨cell, slot, stage, hcell, hstage⟩

end World.Tends

/-- A payload changes, which is possible if the object has a single unit. -/
def World.Granted (world next : World β) (agenda : List Frame) : Prop :=
  ∃ holder obj payload below object, agenda = .mutate holder obj payload true :: below ∧
    world.object? obj = some object ∧ Resident.count object.body = 1 ∧
    next = world.modifyObject obj fun object =>
      { object with body := Resident.setPayload object.body payload }

variable [Lawful β] {world next : World β} {thread : ℕ} {agenda later : List Frame}

/-- A step either changes a payload through exclusive access, or leaves all payloads alone. -/
theorem Frame.tends_or_granted (spared : ObjectId → Prop)
    (hordinary : ∀ frame ∈ agenda, frame.ordinary = true)
    (hshared : ∀ holder ∈ world.holders, holder.exclusive = false → ¬ spared holder.unit)
    (hacquired : ∀ call below obj, agenda = .call call :: below → call.Acquires world obj →
      ¬ spared obj)
    (hstep : Frame.step thread world agenda = some (next, later)) :
    world.Tends spared next ∨ world.Granted next agenda := by
  cases agenda with
  | nil => cases hstep
  | cons top below =>
    have htop := hordinary top List.mem_cons_self
    cases Frame.move_of_step hstep with
    | call _ hcall => exact .inl (.callStep (fun obj => hacquired _ below obj rfl) hcall)
    | write holder payload _ hobject hsole =>
      exact .inr ⟨holder, _, payload, below, _, rfl, hobject, hsole, rfl⟩
    | reply told frame => exact .inl (by cases frame <;> exact .of_objects rfl)
    | chore chore chores told =>
      rw [Frame.ordinary, List.all_cons, Bool.and_eq_true] at htop
      exact .inl (.perform htop.1)
    | tell owner op ops =>
      rw [Frame.ordinary, ordinaryAll_cons] at htop
      exact .inl (.start htop.1 hshared)
    | @surrender _ ref after _ htake =>
      exact .inl ((World.Tends.takeRef htake).trans (.letGo after thread ref))
    | perform remaining body op ops replies =>
      rw [Frame.ordinary, Bool.and_eq_true, ordinaryAll_cons] at htop
      exact .inl (.start htop.2.1 hshared)
    | stress => cases htop
    | refuse | look | told | surrendered | ended | again => exact .inl (.refl _)

theorem World.Persists.step (hordinary : ∀ frame ∈ agenda, frame.ordinary = true)
    (hstep : Frame.step thread world agenda = some (next, later)) : world.Persists next := by
  rcases Frame.tends_or_granted (fun _ => False) hordinary (fun _ _ _ => id)
    (fun _ _ _ _ _ => id) hstep with htends | ⟨holder, obj, payload, below, object, -, -, -, rfl⟩
  · exact htends.persists
  · exact .setPayload world obj payload

end SharedCell
