import Mathlib
import SharedCell.Proofs.Agenda.StepInvariants

/-!
# How much there is to do

A bound on the steps that a thread still has to make: what is on its agenda, and for each object that
is not destroyed what its destruction would take.  A release moves from the objects to the agenda
what the destruction of an object takes.
-/

namespace SharedCell

open Operation

variable {β : Type}

/-! ## Measures -/

/-- The units that an object has to give up, and its script unless the object is destroyed. -/
def Object.cost (object : Object β) : ℕ :=
  object.refs.length + if object.destroyed then 0 else weightAll object.script + 2

def World.cost (world : World β) : ℕ :=
  (world.objects.toList.map Object.cost).sum

/-- The steps from a stage to the outcome of a call, where a call on a slot takes ten of them. -/
def Stage.cost : Stage → ℕ
  | .asking .. => 15
  | .calling _ => 14
  | .vetting _ => 4
  | .writing .. | .refusing _ => 3
  | .rejecting _ | .releasing .. => 2
  | .finished _ => 1

namespace Frame

def cost : Frame → ℕ
  | .call active => active.stage.cost + active.holders.length + 3
  | .mutate _ _ _ stateSeen => if stateSeen then 3 else 4
  | .tidy chores _ => chores.length + 1
  | .script _ ops => weightAll ops + 2
  | .surrender _ => 1
  | .rounds remaining body ops _ => weightAll ops + remaining * (weightAll body + 1) + 2
  | .race _ | .stress _ => 0

@[simp]
theorem cost_call (active : Call) :
    (call active).cost = active.stage.cost + active.holders.length + 3 := rfl

@[simp]
theorem cost_tidy (chores : List Chore) (told : Reply) :
    (tidy chores told).cost = chores.length + 1 := rfl

@[simp]
theorem cost_script (owner : ObjectId) (ops : List Operation) :
    (script owner ops).cost = weightAll ops + 2 := rfl

@[simp]
theorem cost_surrender (owner : ObjectId) : (surrender owner).cost = 1 := rfl

@[simp]
theorem cost_rounds (remaining : ℕ) (body ops : List Operation) (replies : List Reply) :
    (rounds remaining body ops replies).cost =
      weightAll ops + remaining * (weightAll body + 1) + 2 := rfl

/-- The frame leads to a reply. -/
def Answers : Frame → Prop
  | .call _ | .mutate .. | .tidy .. | .rounds .. => True
  | .script .. | .surrender _ | .race _ | .stress _ => False

/-- A frame that leads to a reply and has less to do than this. -/
def Brief (bound : ℕ) (frame : Frame) : Prop :=
  frame.Answers ∧ frame.cost < bound

/-- What all frames of an agenda take. -/
def costAll (agenda : List Frame) : ℕ :=
  (agenda.map cost).sum

@[simp]
theorem costAll_nil : costAll [] = 0 := rfl

@[simp]
theorem costAll_cons (frame : Frame) (agenda : List Frame) :
    costAll (frame :: agenda) = frame.cost + costAll agenda := by
  rw [costAll, List.map_cons, List.sum_cons, costAll]

@[simp]
theorem costAll_append (above below : List Frame) :
    costAll (above ++ below) = costAll above + costAll below := by
  rw [costAll, List.map_append, List.sum_append, costAll, costAll]

end Frame

/-! ## Worlds -/

namespace World

variable {world next : World β} {obj : ObjectId}

theorem cost_of_objects (hobjects : next.objects = world.objects) : next.cost = world.cost := by
  rw [cost, hobjects, cost]

/-- The weight of a world covers it all. -/
theorem cost_le_weight (world : World β) : world.cost ≤ world.weight := by
  refine world.sum_le_weight fun object => ?_
  have hcost : object.cost ≤ object.refs.length + (weightAll object.script + 2) :=
    Nat.add_le_add_left (by split <;> omega) _
  simp only [callWeight]
  omega

theorem cost_modifyObject {change : Object β → Object β}
    (hchange : ∀ object, (change object).cost = object.cost) :
    (world.modifyObject obj change).cost = world.cost := by
  cases hobject : world.object? obj with
  | none => rw [modifyObject_none hobject]
  | some object =>
    have hsum := sum_modifyObject hobject change Object.cost
    rw [hchange] at hsum
    exact Nat.add_right_cancel hsum

theorem cost_addObject (world : World β) (object : Object β) :
    (world.addObject object).1.cost = world.cost + object.cost := by
  simp [cost, addObject]

/-- The log tells which objects are destroyed. -/
def Marked (world : World β) : Prop :=
  ∀ obj object, world.object? obj = some object → object.destroyed = true →
    obj ∈ destroyedIn world.log

variable [Resident β] {thread : ℕ} {unit : ObjectId}

theorem cost_acquire (world : World β) (thread : ℕ) (obj : ObjectId) :
    (world.acquire thread obj).cost = world.cost :=
  cost_modifyObject fun _ => rfl

theorem Sound.marked {stakes : Stakes} (hsound : world.Sound stakes) : world.Marked :=
  fun obj object hobject hgone => (hsound.books.destroyed obj).mpr ⟨object, hobject, hgone⟩

/-- What the destruction of an object takes was counted before its last unit was released. -/
theorem cost_letGo (hmarked : world.Marked) (horderly : Orderly (world.letGo thread unit).1.log) :
    (world.letGo thread unit).1.cost + Frame.costAll (world.letGo thread unit).2 ≤ world.cost := by
  let change (object : Object β) : Object β :=
    { object with
      body := (Counted.release object.body).1
      destroyed := object.destroyed || world.isLast unit }
  have hreleased : (world.letGo thread unit).1.cost = (world.modifyObject unit change).cost := by
    rw [letGo, release_eq]
    rfl
  cases hlast : world.isLast unit with
  | false =>
    have hnone : (world.letGo thread unit).2 = [] := by simp [letGo, hlast]
    have hchange (object : Object β) : (change object).cost = object.cost := by
      simp [change, Object.cost, hlast]
    rw [hreleased, hnone, cost_modifyObject hchange, Frame.costAll_nil, add_zero]
  | true =>
    have hlogged : (thread, .released unit (world.count unit)) :: world.log <:+
        (world.letGo thread unit).1.log := by
      rw [letGo, Books.log_release]
      exact List.suffix_append _ _
    obtain ⟨later, hlater⟩ := hlogged
    have hfresh : unit ∉ destroyedIn world.log := (hlater ▸ horderly).suffix.2.2
    cases hobject : world.object? unit with
    | none => simp [isLast, hobject] at hlast
    | some object =>
      have hlive : object.destroyed = false := by
        rw [← Bool.not_eq_true]
        exact fun hgone => hfresh (hmarked unit object hobject hgone)
      have hopened : Frame.costAll (world.letGo thread unit).2 ≤ weightAll object.script + 2 := by
        simp only [letGo, hlast, hobject]
        split <;> simp [Frame.cost]
      have hbefore : object.cost = object.refs.length + (weightAll object.script + 2) := by
        simp [Object.cost, hlive]
      have hafter : (change object).cost = object.refs.length := by
        simp [change, Object.cost, hlast]
      have hsum : (world.modifyObject unit change).cost + object.cost =
          world.cost + (change object).cost := sum_modifyObject hobject change Object.cost
      omega

theorem cost_letGo? {unit : Option ObjectId} (hmarked : world.Marked)
    (horderly : Orderly (world.letGo? thread unit).1.log) :
    (world.letGo? thread unit).1.cost + Frame.costAll (world.letGo? thread unit).2 ≤
      world.cost := by
  cases unit with
  | none => exact le_rfl
  | some unit => exact cost_letGo hmarked horderly

end World

end SharedCell
