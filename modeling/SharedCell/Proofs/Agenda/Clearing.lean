import Mathlib
import SharedCell.Proofs.Agenda.StepInvariants
import SharedCell.Proofs.Ownership.Persistence

/-!
# Clearing

A thread that only gives up units, in a world whose objects perform no scripts, comes to its end.
Every release either leaves an object with a unit less, or destroys it, after which it gives up the
units that it owns.  So each step makes less of what there is still to release and to destroy.
-/

namespace SharedCell

variable {β : Type}

namespace World

/-- The object is destroyed. -/
def Gone (world : World β) (obj : ObjectId) : Prop :=
  ∃ object, world.object? obj = some object ∧ object.destroyed = true

/-- Only destroyed objects have given up units, and only objects and the log have changed. -/
structure Clears (world next : World β) : Prop where
  cells : next.cells = world.cells
  holders : next.holders = world.holders
  raws : next.raws = world.raws
  scripts : next.scripts = world.scripts
  size : next.objects.size = world.objects.size
  log : world.log <:+ next.log
  refs : ∀ obj object, next.object? obj = some object → object.destroyed = false →
    ∃ earlier, world.object? obj = some earlier ∧ earlier.refs = object.refs ∧
      earlier.destroyed = false

namespace Clears

variable {world next last : World β} {obj : ObjectId}

theorem refl (world : World β) : world.Clears world :=
  ⟨rfl, rfl, rfl, rfl, rfl, List.suffix_rfl, fun _ object hobject hlive =>
    ⟨object, hobject, rfl, hlive⟩⟩

theorem trans (hfirst : world.Clears next) (hsecond : next.Clears last) : world.Clears last where
  cells := hsecond.cells.trans hfirst.cells
  holders := hsecond.holders.trans hfirst.holders
  raws := hsecond.raws.trans hfirst.raws
  scripts := hsecond.scripts.trans hfirst.scripts
  size := hsecond.size.trans hfirst.size
  log := hfirst.log.trans hsecond.log
  refs obj object hobject hlive := by
    obtain ⟨later, hlater, hrefs, hgone⟩ := hsecond.refs obj object hobject hlive
    obtain ⟨earlier, hearlier, hsame, hbefore⟩ := hfirst.refs obj later hlater hgone
    exact ⟨earlier, hearlier, hsame.trans hrefs, hbefore⟩

theorem modifyObject (world : World β) (obj : ObjectId) (change : Object β → Object β)
    (hchange : ∀ object, world.object? obj = some object → (change object).destroyed = false →
      object.refs = (change object).refs ∧ object.destroyed = false) :
    world.Clears (world.modifyObject obj change) where
  cells := rfl
  holders := rfl
  raws := rfl
  scripts := rfl
  size := Array.size_modify
  log := List.suffix_rfl
  refs other object hobject hlive := by
    rw [object?, Books.getElem?_modifyObject] at hobject
    split at hobject
    · rename_i hother
      subst hother
      obtain ⟨earlier, hearlier, rfl⟩ := Option.map_eq_some_iff.mp hobject
      exact ⟨earlier, hearlier, hchange earlier hearlier hlive⟩
    · exact ⟨object, hobject, rfl, hlive⟩

end Clears

end World

/-- How many units an object has to give up, and whether it is still to be destroyed. -/
def Object.burden (object : Object β) : ℕ :=
  object.refs.length + if object.destroyed then 0 else 1

/-- What all objects have to give up. -/
def World.burden (world : World β) : ℕ :=
  (world.objects.toList.map Object.burden).sum

theorem World.burden_modifyObject {world : World β} {obj : ObjectId} {object : Object β}
    (hobject : world.object? obj = some object) (change : Object β → Object β) :
    (world.modifyObject obj change).burden + object.burden =
      world.burden + (change object).burden :=
  sum_modifyObject hobject change Object.burden

namespace Frame

/-- How many units a frame has to release; an object that gives up its units has one more step to
make. -/
def burden : Frame → ℕ
  | .tidy chores _ => chores.length
  | .surrender _ => 1
  | _ => 0

/-- There is nothing to do but to release units and to take them from destroyed objects. -/
inductive Clearing (gone : ObjectId → Prop) : List Frame → Prop where
  | releases (units : List ObjectId) (reply : Reply) :
      Clearing gone [.tidy (units.map .release) reply]
  | surrender {owner : ObjectId} {below : List Frame} (hgone : gone owner)
      (hbelow : Clearing gone below) : Clearing gone (.surrender owner :: below)

theorem Clearing.mono {gone more : ObjectId → Prop} {agenda : List Frame}
    (hclearing : Clearing gone agenda) (hmore : ∀ obj, gone obj → more obj) :
    Clearing more agenda := by
  induction hclearing with
  | releases units reply => exact .releases units reply
  | surrender hgone _ ih => exact .surrender (hmore _ hgone) ih

/-- An agenda with a reply has nothing else on it. -/
theorem eq_of_reply {agenda : List Frame} (hreply : (reply? agenda).isSome = true) :
    ∃ reply, agenda = [.tidy [] reply] := by
  unfold reply? at hreply
  split at hreply
  · rename_i reply
    exact ⟨reply, rfl⟩
  · cases hreply

end Frame

namespace World

variable [Resident β] {world next : World β} {stakes : Stakes} {thread : ℕ} {unit : ObjectId}

variable (thread) in
/-- A release takes a unit from an object, or destroys the object, which then gives up its units. -/
theorem Sound.letGo_clears (hsound : world.Sound (.unitsOn {unit} + stakes))
    (hscripts : world.scripts = false) :
    world.Clears (world.letGo thread unit).1 ∧
      (world.letGo thread unit).1.burden + ((world.letGo thread unit).2.map Frame.burden).sum =
        world.burden ∧
      ((world.letGo thread unit).2 = [] ∨
        (world.letGo thread unit).2 = [.surrender unit] ∧ (world.letGo thread unit).1.Gone unit) := by
  have hunit : unit ∈ world.owned + (Stakes.unitsOn {unit} + stakes).inHand := by simp
  obtain ⟨object, hfound, hlive, -⟩ := hsound.books.live hunit
  have hobject : world.object? unit = some object := hfound
  let change (object : Object β) : Object β :=
    { object with
      body := (Counted.release object.body).1
      destroyed := object.destroyed || world.isLast unit }
  have hnext : (world.letGo thread unit).1 =
      { world.modifyObject unit change with log := (world.release thread unit).log } :=
    release_eq world thread unit
  have hclears : world.Clears (world.letGo thread unit).1 := by
    have hmodified := Clears.modifyObject world unit change
      fun object _ hstill => ⟨rfl, (Bool.or_eq_false_iff.mp hstill).1⟩
    have hlog : world.log <:+ (world.release thread unit).log := by
      rw [Books.log_release]
      exact (List.suffix_cons _ _).trans (List.suffix_append _ _)
    rw [hnext]
    exact { hmodified with log := hlog }
  have hburden : (world.letGo thread unit).1.burden + 1 =
      world.burden + if world.isLast unit then 0 else 1 := by
    have hobjects : (world.letGo thread unit).1.burden = (world.modifyObject unit change).burden := by
      rw [hnext]
      rfl
    have hsum := burden_modifyObject hobject change
    simp only [Object.burden, show (change object).refs = object.refs from rfl,
      show (change object).destroyed = (object.destroyed || world.isLast unit) from rfl, hlive,
      Bool.false_or, Bool.false_eq_true, if_false] at hsum
    omega
  refine ⟨hclears, ?_⟩
  cases hlast : world.isLast unit with
  | false =>
    have hopened : (world.letGo thread unit).2 = [] := by rw [World.letGo, hlast]
    refine ⟨?_, .inl hopened⟩
    rw [hlast, if_neg Bool.false_ne_true] at hburden
    rw [hopened, List.map_nil, List.sum_nil]
    exact Nat.succ.inj hburden
  | true =>
    have hopened : (world.letGo thread unit).2 = [.surrender unit] := by
      rw [World.letGo, hlast, hobject, hscripts]
      rfl
    refine ⟨?_, .inr ⟨hopened, ?_⟩⟩
    · rw [hlast, if_pos rfl] at hburden
      rw [hopened]
      exact hburden
    · refine ⟨change object, ?_, Bool.or_eq_true_iff.mpr (.inr hlast)⟩
      rw [hnext, object?, Books.getElem?_modifyObject, if_pos rfl, hfound]
      rfl

end World

namespace Frame.Clearing

open World

variable [Resident β] [Lawful β] {world : World β} {agenda : List Frame}

/-- What is released goes on top of what there is to clear. -/
theorem letGo {unit : ObjectId} {stakes : Stakes} (thread : ℕ) {below : List Frame}
    (hsound : world.Sound (.unitsOn {unit} + stakes)) (hscripts : world.scripts = false)
    (hbelow : Clearing world.Gone below) :
    world.Clears (world.letGo thread unit).1 ∧
      Clearing (world.letGo thread unit).1.Gone ((world.letGo thread unit).2 ++ below) ∧
      (world.letGo thread unit).1.burden +
        (((world.letGo thread unit).2 ++ below).map burden).sum =
          world.burden + (below.map burden).sum := by
  obtain ⟨hclears, hburden, hopened⟩ := hsound.letGo_clears thread hscripts
  have hgone : ∀ obj, world.Gone obj → (world.letGo thread unit).1.Gone obj := by
    rintro obj ⟨object, hobject, hdestroyed⟩
    have htends : world.Tends (fun _ => False) (world.letGo thread unit).1 :=
      .letGo world thread unit
    obtain ⟨later, hlater, hpersists⟩ := htends.persists obj object hobject
    exact ⟨later, hlater, hpersists.destroyed hdestroyed⟩
  have hkept := hbelow.mono hgone
  refine ⟨hclears, ?_, ?_⟩
  · rcases hopened with hnone | ⟨hsome, hunit⟩
    · rw [hnone]
      exact hkept
    · rw [hsome]
      exact .surrender hunit hkept
  · rw [List.map_append, List.sum_append, ← add_assoc, hburden]

/-- As long as there is something to clear, a step clears one unit or one object. -/
theorem step (hclearing : Clearing world.Gone agenda) (hsound : world.Sound (stakesOf agenda))
    (hscripts : world.scripts = false) :
    (∃ reply, agenda = [.tidy [] reply]) ∨
      ∃ next later, Frame.step 0 world agenda = some (next, later) ∧ world.Clears next ∧
        Clearing next.Gone later ∧
        next.burden + (later.map burden).sum + 1 = world.burden + (agenda.map burden).sum := by
  cases hclearing with
  | releases units reply =>
    cases units with
    | nil => exact .inl ⟨reply, rfl⟩
    | cons unit units =>
      have hunit : world.Sound (.unitsOn {unit} + stakesOf [.tidy (units.map .release) reply]) := by
        simpa [Frame.stakes, Chore.stakes] using hsound
      obtain ⟨hclears, hlater, hburden⟩ :=
        letGo 0 hunit hscripts (.releases units reply)
      refine .inr ⟨_, _, rfl, hclears, hlater, ?_⟩
      calc _ = world.burden +
            ([.tidy (units.map Chore.release) reply].map burden).sum + 1 := congrArg (· + 1) hburden
        _ = _ := by simp [burden, add_assoc]
  | @surrender owner below hgone hbelow =>
    cases htake : world.takeRef owner with
    | none =>
      refine .inr ⟨world, below, ?_, .refl world, hbelow, ?_⟩
      · simp [Frame.step, htake]
      · simp [burden]
        omega
    | some taken =>
      obtain ⟨after, ref⟩ := taken
      obtain ⟨object, refs, hobject, hrefs, rfl⟩ := takeRef_eq_some htake
      obtain ⟨found, hfound, hdestroyed⟩ := hgone
      obtain rfl := Option.some.inj (hobject.symm.trans hfound)
      have htaken := hsound.surrender hobject hrefs
      have hgone : (world.modifyObject owner ({ · with refs })).Gone owner := by
        refine ⟨{ object with refs }, ?_, hdestroyed⟩
        rw [object?, Books.getElem?_modifyObject, if_pos rfl,
          show world.objects[owner]? = _ from hobject]
        rfl
      have hbefore : world.Clears (world.modifyObject owner ({ · with refs })) := by
        refine .modifyObject world owner _ fun earlier hearlier hlive => ?_
        obtain rfl := Option.some.inj (hobject.symm.trans hearlier)
        cases hdestroyed.symm.trans hlive
      have hkept : ∀ obj, world.Gone obj →
          (world.modifyObject owner ({ · with refs })).Gone obj := by
        rintro obj ⟨later, hlater, hgone⟩
        refine ⟨if owner = obj then { later with refs } else later, ?_, by split <;> exact hgone⟩
        rw [object?, Books.getElem?_modifyObject, show world.objects[obj]? = _ from hlater]
        split <;> rfl
      obtain ⟨hclears, hlater, hburden⟩ :=
        letGo 0 htaken hscripts (.surrender hgone (hbelow.mono hkept))
      refine .inr ⟨_, _, by simp [Frame.step, htake], hbefore.trans hclears, hlater, ?_⟩
      have hone := burden_modifyObject hobject ({ · with refs })
      simp only [Object.burden, hrefs, List.length_cons] at hone
      calc _ = (world.modifyObject owner ({ · with refs })).burden +
            ((.surrender owner :: below).map burden).sum + 1 := congrArg (· + 1) hburden
        _ = world.burden + ((.surrender owner :: below).map burden).sum := by omega

end Frame.Clearing

end SharedCell
