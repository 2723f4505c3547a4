import Mathlib
import SharedCell.Proofs.Agenda.Clearing
import SharedCell.Proofs.Crew.Units

/-!
# Teardown

When all threads have ended, the cells, the handles and the raw units are given up, and destroyed
objects perform no scripts any more.  As objects own units on older ones only, nothing stays behind
but what permanent objects keep alive.
-/

namespace SharedCell

variable {β : Type}

namespace Crew

variable [Resident β]

/-! ## Books that can be closed -/

/-- Nothing is lost sight of: units, handles without a name, counts, and destroyed objects. -/
structure Accounted (crew : Crew β) : Prop where
  sound : crew.Sound
  regular : crew.world.Regular
  tallied : (∀ body : β, Counted.isPermanent body = false) → crew.world.Tallied
  settled : ∀ obj, crew.world.Owes obj → ∃ frame ∈ crew.agendas.flatten, frame.Settles obj

theorem start_accounted {programs : List (List Operation)}
    (hordinary : ∀ ops ∈ programs, Operation.ordinaryAll ops = true) :
    (start programs : Crew β).Accounted where
  sound := start_sound hordinary
  regular := .empty
  tallied _ := World.tallied_empty
  settled obj howes := by
    obtain ⟨object, hobject, -⟩ := howes
    cases hobject

variable [Lawful β] {crew next : Crew β} {thread : ℕ}

theorem Accounted.step (haccounted : crew.Accounted) (hstep : crew.step thread = some next) :
    next.Accounted := by
  have hsound := haccounted.sound
  obtain ⟨agenda, world, later, hagenda, hframe, rfl⟩ := step_eq_some hstep
  have hordinary := hsound.ordinary_agenda (List.mem_of_getElem? hagenda)
  obtain ⟨before, after, hplace, -, hset, -⟩ := exists_place hagenda
  constructor
  case sound => exact hsound.step hstep
  case regular =>
    exact Frame.step_keeps (fun _ _ => World.Change.regular)
      (fun _ obj hregular => hregular.release thread obj) (fun _ _ _ hregular => hregular.congr rfl rfl)
      hsound.world hordinary hframe haccounted.regular
  case tallied =>
    intro hcounted
    refine Frame.step_keeps (fun _ _ => World.Change.tallied hcounted)
      (fun _ obj htallied => htallied.release hcounted thread obj) (fun _ event hretried htallied => ?_)
      hsound.world hordinary hframe (haccounted.tallied hcounted)
    apply htallied.remark
    cases event <;> first | rfl | cases hretried
  case settled =>
    intro obj howes
    have hlater : (∃ frame ∈ later, frame.Settles obj) →
        ∃ frame ∈ (crew.agendas.set thread later).flatten, frame.Settles obj := by
      rintro ⟨frame, hmem, hsettles⟩
      refine ⟨frame, ?_, hsettles⟩
      rw [hset, List.flatten_append, List.flatten_cons]
      exact List.mem_append_right _ (List.mem_append_left _ hmem)
    rcases Frame.step_owes hsound.world hordinary hframe howes with hbefore | hnew
    · obtain ⟨frame, hmem, hsettles⟩ := haccounted.settled obj hbefore
      rw [hplace, List.flatten_append, List.flatten_cons, List.mem_append, List.mem_append,
        or_left_comm] at hmem
      rcases hmem with hmine | hother
      · rcases Frame.step_settles hframe ⟨frame, hmine, hsettles⟩ with hkept | ⟨rfl, hpaid⟩
        · exact hlater hkept
        · exact absurd hbefore hpaid
      · refine ⟨frame, ?_, hsettles⟩
        rw [hset, List.flatten_append, List.flatten_cons, List.mem_append, List.mem_append,
          or_left_comm]
        exact .inr hother
    · exact hlater hnew

theorem Accounted.run (haccounted : crew.Accounted) (schedule : List ℕ) :
    (crew.run schedule).Accounted :=
  run_keeps Accounted (fun _ _ _ haccounted hstep => haccounted.step hstep) haccounted schedule

/-! ## Threads that have ended -/

/-- Every thread has its reply. -/
def Ended (crew : Crew β) : Prop :=
  ∀ agenda ∈ crew.agendas, (Frame.reply? agenda).isSome = true

instance (crew : Crew β) : Decidable crew.Ended :=
  inferInstanceAs (Decidable (∀ agenda ∈ crew.agendas, (Frame.reply? agenda).isSome = true))

namespace Ended

omit [Resident β] [Lawful β]

theorem stakes (hended : crew.Ended) : crew.stakes = 0 := by
  apply List.sum_eq_zero
  intro stakes hstakes
  obtain ⟨frame, hframe, rfl⟩ := List.mem_map.mp hstakes
  obtain ⟨agenda, hagenda, hmem⟩ := List.mem_flatten.mp hframe
  obtain ⟨reply, rfl⟩ := Frame.eq_of_reply (hended agenda hagenda)
  obtain rfl := List.mem_singleton.mp hmem
  rfl

/-- All destroyed objects have given up their units. -/
theorem not_owes [Resident β] (hended : crew.Ended) (haccounted : crew.Accounted)
    (obj : ObjectId) : ¬ crew.world.Owes obj := by
  intro howes
  obtain ⟨frame, hframe, hsettles⟩ := haccounted.settled obj howes
  obtain ⟨agenda, hagenda, hmem⟩ := List.mem_flatten.mp hframe
  obtain ⟨reply, rfl⟩ := Frame.eq_of_reply (hended agenda hagenda)
  obtain rfl := List.mem_singleton.mp hmem
  exact hsettles

end Ended

end Crew

namespace World

/-- The world without its cells, handles and raw units, whose objects perform no scripts. -/
def bare (world : World β) : World β :=
  { world with cells := [], holders := [], raws := [], scripts := false }

/-- All units that are not owned by objects. -/
theorem remainder_eq {world : World β} (hnamed : ∀ holder ∈ world.holders, holder.name ≠ none) :
    (world.remainder : Multiset ObjectId) + world.bare.owned = world.owned := by
  have hsorted (units : List (String × ObjectId)) :
      (((units.mergeSort fun left right => decide (left.1 ≤ right.1)).map (·.2) : List ObjectId) :
        Multiset ObjectId) = (units.map (·.2) : List ObjectId) :=
    Multiset.coe_eq_coe.mpr ((List.mergeSort_perm _ _).map _)
  have hcells : ∀ cells : List (String × Cell),
      ((cells.filterMap fun entry => entry.2.slot.content.map (entry.1, ·)).map
        Prod.snd : Multiset ObjectId) =
      (cells : Multiset (String × Cell)).bind fun entry => entry.2.slot.units := by
    intro cells
    induction cells with
    | nil => rfl
    | cons entry cells ih =>
      rw [← Multiset.cons_coe, Multiset.cons_bind, ← ih, List.filterMap_cons]
      cases hcontent : entry.2.slot.content <;> simp [Slot.units, hcontent]
  have hholders : (world.holders.filterMap fun holder => holder.name.map (·, holder.unit)).map
      Prod.snd = world.holders.map Holder.unit := by
    rw [List.map_filterMap, ← List.filterMap_eq_map]
    refine List.filterMap_congr fun holder hholder => ?_
    obtain ⟨name, hname⟩ := Option.ne_none_iff_exists'.mp (hnamed holder hholder)
    simp [hname]
  rw [remainder, ← Multiset.coe_add, ← Multiset.coe_add, hsorted, hsorted, hsorted, hcells, hholders]
  simp only [owned, bare, List.map_nil, Multiset.coe_nil, Multiset.zero_bind, zero_add]
  abel

/-- Fuel for clearing is fuel for performing all scripts too. -/
theorem burden_le_weight (world : World β) : world.burden ≤ world.weight := by
  refine world.sum_le_weight fun object => ?_
  have hburden : object.burden ≤ object.refs.length + 1 :=
    Nat.add_le_add_left (by split <;> decide) _
  simp only [Operation.callWeight]
  omega

variable [Resident β] {world : World β}

theorem Sound.bare (hsound : world.Sound 0)
    (hnamed : ∀ holder ∈ world.holders, holder.name ≠ none) :
    world.bare.Sound (.unitsOn world.remainder) where
  books := by
    have hbooks := hsound.books
    rw [Stakes.inHand_zero, add_zero, ← remainder_eq hnamed, add_comm] at hbooks
    rw [(Stakes.unitsOn_parts _).1]
    exact hbooks
  held :=
    { ids := List.nodup_nil
      fresh := fun _ hholder => absurd hholder List.not_mem_nil
      users := fun _ hholder => absurd hholder List.not_mem_nil
      present := by simp
      exclusive := by simp
      backed := by simp }
  raws := List.nodup_nil
  housed :=
    { names := List.nodup_nil
      present := by simp
      sound := fun _ _ hcell => absurd hcell List.not_mem_nil }
  scripts := hsound.scripts

/-- Handles of threads that have ended have names. -/
theorem Sound.named (hsound : world.Sound 0) (hregular : world.Regular) :
    ∀ holder ∈ world.holders, holder.name ≠ none := by
  intro holder hholder hname
  apply hregular.named holder hholder hname
  rw [hsound.held.users holder hholder, Stakes.used_zero, Multiset.count_zero]

end World

namespace Crew

variable [Resident β] {crew : Crew β}

/-- The cells, the handles and the raw units of a world are about to be given up. -/
def clearance (world : World β) : Crew β where
  world := world.bare
  agendas := [[.tidy (world.remainder.map .release) .ok]]

theorem Ended.clearance (hended : crew.Ended) (haccounted : crew.Accounted) :
    (clearance crew.world).Accounted := by
  have hsound := haccounted.sound.world
  rw [hended.stakes] at hsound
  constructor
  case sound =>
    constructor
    case world =>
      have hstakes : (Crew.clearance crew.world).stakes = .unitsOn crew.world.remainder := by
        simp only [Crew.stakes, Crew.clearance, List.flatten_singleton, stakesOf_cons, stakesOf_nil,
          Frame.stakes, stakes_releases, add_zero]
      rw [hstakes]
      exact hsound.bare (hsound.named haccounted.regular)
    case ordinary =>
      simp [Crew.clearance, Frame.ordinary, Chore.ordinary]
  case regular =>
    exact ⟨fun _ hholder => absurd hholder List.not_mem_nil, haccounted.regular.grounded⟩
  case tallied => exact fun hcounted => (haccounted.tallied hcounted).congr rfl rfl
  case settled =>
    exact fun obj howes => absurd (howes.congr rfl) (hended.not_owes haccounted obj)

/-- Threads that make no step stay as they are. -/
theorem run_replicate (hstep : crew.step 0 = none) (fuel : ℕ) :
    crew.run (List.replicate fuel 0) = crew := by
  induction fuel with
  | zero => rfl
  | succ fuel ih => rw [List.replicate_succ, run, hstep, Option.getD_none, ih]

/-- Clearing comes to its end. -/
theorem Sound.run_clears [Lawful β] (hsound : crew.Sound) {agenda : List Frame} (fuel : ℕ)
    (honly : crew.agendas = [agenda]) (hscripts : crew.world.scripts = false)
    (hclearing : Frame.Clearing crew.world.Gone agenda)
    (hfuel : crew.world.burden + (agenda.map Frame.burden).sum ≤ fuel) :
    (crew.run (List.replicate fuel 0)).Ended ∧
      crew.world.Clears (crew.run (List.replicate fuel 0)).world := by
  have hfirst : crew.agendas[0]? = some agenda := by rw [honly]; rfl
  have hagenda : crew.world.Sound (stakesOf agenda) := by
    have hworld := hsound.world
    rwa [Crew.stakes, honly, List.flatten_singleton] at hworld
  induction fuel generalizing crew agenda with
  | zero =>
    rcases hclearing.step hagenda hscripts with ⟨reply, rfl⟩ | ⟨next, later, -, -, -, hburden⟩
    · refine ⟨fun other hother => ?_, .refl _⟩
      obtain rfl := List.mem_singleton.mp (honly ▸ hother)
      rfl
    · omega
  | succ fuel ih =>
    rcases hclearing.step hagenda hscripts with
      ⟨reply, rfl⟩ | ⟨next, later, hframe, hclears, hlater, hburden⟩
    · have hstep : crew.step 0 = none := by simp [Crew.step, hfirst, Frame.step]
      rw [run_replicate hstep]
      refine ⟨fun other hother => ?_, .refl _⟩
      obtain rfl := List.mem_singleton.mp (honly ▸ hother)
      rfl
    · have hstep : crew.step 0 = some { world := next, agendas := [later] } := by
        simp [Crew.step, honly, hframe]
      have hnext := hsound.step hstep
      rw [List.replicate_succ, Crew.run, hstep, Option.getD_some]
      have hless : next.burden + (later.map Frame.burden).sum ≤ fuel := by omega
      obtain ⟨hended, hrest⟩ := ih hnext rfl (hclears.scripts.trans hscripts) hlater hless rfl
        (by simpa [Crew.stakes] using hnext.world)
      exact ⟨hended, hclears.trans hrest⟩

end Crew

namespace World

/-! ## What is left -/

/-- What is reached from a permanent object by the references of objects. -/
inductive Anchored [Resident β] (world : World β) : ObjectId → Prop where
  | permanent {owner ref : ObjectId} {object : Object β} (hobject : world.object? owner = some object)
      (hpermanent : Counted.isPermanent object.body = true) (href : ref ∈ object.refs) :
      Anchored world ref
  | owned {owner ref : ObjectId} {object : Object β} (hobject : world.object? owner = some object)
      (howner : Anchored world owner) (href : ref ∈ object.refs) : Anchored world ref

variable [Resident β] {world next last : World β} {obj : ObjectId} {object : Object β}

theorem Anchored.congr (hanchored : next.Anchored obj) (hobjects : next.objects = world.objects) :
    world.Anchored obj := by
  have hsame : next.object? = world.object? := by
    unfold object?
    rw [hobjects]
  induction hanchored with
  | permanent hobject hpermanent href => exact .permanent (hsame ▸ hobject) hpermanent href
  | owned hobject _ href ih => exact .owned (hsame ▸ hobject) ih href

/-- What is left of a world after its teardown. -/
structure TornDown (world last : World β) : Prop where
  /-- Units are owned by objects only. -/
  empty : last.cells = [] ∧ last.holders = [] ∧ last.raws = []
  persists : world.Persists last
  size : last.objects.size = world.objects.size
  /-- The log goes back to the first step. -/
  log : world.log <:+ last.log
  destroyed : ∀ obj object, last.object? obj = some object →
    Counted.isPermanent object.body = false → ¬ world.Anchored obj →
      object.destroyed = true ∧ (destroyedIn last.log).count obj = 1
  kept : ∀ obj object, last.object? obj = some object →
    Counted.isPermanent object.body = true ∨ world.Anchored obj →
      object.destroyed = false ∧ (destroyedIn last.log).count obj = 0
  /-- No count was touched that was not above zero, but those of permanent objects. -/
  touched : ∀ thread obj count,
    (thread, .acquired obj count) ∈ last.log ∨ (thread, .released obj count) ∈ last.log →
      ∃ object, last.object? obj = some object ∧
        (Counted.isPermanent object.body = true ∨ 1 ≤ count)
  /-- On a heap that counts all its objects, allocations and calls come out even. -/
  even : (∀ body : β, Counted.isPermanent body = false) →
    (last.objects.size : ℤ) + (({} : Totals).add last.events).acquired -
        (({} : Totals).add last.events).released = 0 ∧
      (({} : Totals).add last.events).violations = 0

theorem Anchored.live {stakes : Stakes} (hsound : world.Sound stakes)
    (hanchored : world.Anchored obj) (hobject : world.object? obj = some object) :
    object.destroyed = false := by
  have hunit : obj ∈ world.owned + stakes.inHand := by
    have howner : ∃ owner object, world.object? owner = some object ∧ obj ∈ object.refs := by
      cases hanchored with
      | permanent howner _ href | owned howner _ href => exact ⟨_, _, howner, href⟩
    obtain ⟨owner, holding, howner, href⟩ := howner
    rw [World.owned, Multiset.mem_add, Multiset.mem_add]
    refine .inl (.inr (Multiset.mem_bind.mpr ⟨holding, ?_, href⟩))
    exact Array.mem_toList_iff.mpr (Array.mem_of_getElem? howner)
  obtain ⟨found, hfound, hlive, -⟩ := hsound.books.live hunit
  obtain rfl := Option.some.inj (hfound.symm.trans hobject)
  exact hlive

theorem Sound.permanent_live {stakes : Stakes} (hsound : world.Sound stakes)
    (hobject : world.object? obj = some object)
    (hpermanent : Counted.isPermanent object.body = true) : object.destroyed = false :=
  ((Object.squares_permanent hpermanent).mp (hsound.books.squares obj object hobject)).2

/-- What permanent objects keep alive is never given up. -/
theorem Clears.anchored_iff {stakes : Stakes} (hclears : world.Clears last)
    (hpersists : world.Persists last) (hsound : last.Sound stakes) :
    last.Anchored obj ↔ world.Anchored obj := by
  -- an owner that is not destroyed owns the same units in both worlds
  have hback : ∀ owner object, last.object? owner = some object → object.destroyed = false →
      ∃ earlier, world.object? owner = some earlier ∧ earlier.refs = object.refs ∧
        Counted.isPermanent earlier.body = Counted.isPermanent object.body := by
    intro owner object hobject hlive
    obtain ⟨earlier, hearlier, hrefs, -⟩ := hclears.refs owner object hobject hlive
    obtain ⟨later, hlater, hsame⟩ := hpersists owner earlier hearlier
    obtain rfl := Option.some.inj (hlater.symm.trans hobject)
    exact ⟨earlier, hearlier, hrefs, hsame.permanent.symm⟩
  have hforth : ∀ owner object, world.object? owner = some object →
      (∀ later, last.object? owner = some later →
        Counted.isPermanent later.body = Counted.isPermanent object.body →
          later.destroyed = false) →
      ∃ later, last.object? owner = some later ∧ later.refs = object.refs ∧
        Counted.isPermanent later.body = Counted.isPermanent object.body := by
    intro owner object hobject hlive
    obtain ⟨later, hlater, hsame⟩ := hpersists owner object hobject
    obtain ⟨earlier, hearlier, hrefs, -⟩ :=
      hback owner later hlater (hlive later hlater hsame.permanent)
    obtain rfl := Option.some.inj (hearlier.symm.trans hobject)
    exact ⟨later, hlater, hrefs.symm, hsame.permanent⟩
  constructor
  · intro hanchored
    induction hanchored with
    | permanent hobject hpermanent href =>
      obtain ⟨earlier, hearlier, hrefs, hsame⟩ :=
        hback _ _ hobject (hsound.permanent_live hobject hpermanent)
      exact .permanent hearlier (hsame.trans hpermanent) (hrefs ▸ href)
    | owned hobject howner href ih =>
      obtain ⟨earlier, hearlier, hrefs, -⟩ := hback _ _ hobject (howner.live hsound hobject)
      exact .owned hearlier ih (hrefs ▸ href)
  · intro hanchored
    induction hanchored with
    | permanent hobject hpermanent href =>
      obtain ⟨later, hlater, hrefs, hsame⟩ := hforth _ _ hobject fun later hlater hsame =>
        hsound.permanent_live hlater (hsame.trans hpermanent)
      exact .permanent hlater (hsame.trans hpermanent) (hrefs ▸ href)
    | owned hobject howner href ih =>
      obtain ⟨later, hlater, hrefs, -⟩ := hforth _ _ hobject fun later hlater _ =>
        ih.live hsound hlater
      exact .owned hlater ih (hrefs ▸ href)

/-- As references go to older objects, whatever is alive once all units are owned by objects is
kept alive by a permanent object. -/
theorem Regular.anchored (hregular : world.Regular) (hsound : world.Sound 0)
    (hbare : world.cells = [] ∧ world.holders = [] ∧ world.raws = [])
    (hpaid : ∀ obj, ¬ world.Owes obj) (hobject : world.object? obj = some object)
    (hlive : object.destroyed = false) :
    Counted.isPermanent object.body = true ∨ world.Anchored obj := by
  induction hage : world.objects.size - obj using Nat.strong_induction_on generalizing obj object with
  | h age ih =>
  by_cases hpermanent : Counted.isPermanent object.body = true
  · exact .inl hpermanent
  right
  have hsquares := (Object.squares_counted (Bool.not_eq_true _ ▸ hpermanent)).mp
    (hsound.books.squares obj object hobject)
  have howned : obj ∈ (world.objects.toList : Multiset (Object β)).bind fun object => ↑object.refs := by
    have hcount := mt hsquares.2.mpr (Bool.not_eq_true _ ▸ hlive)
    rw [Multiset.count_eq_zero, not_not] at hcount
    simpa [World.owned, hbare] using hcount
  obtain ⟨holding, hmem, href⟩ := Multiset.mem_bind.mp howned
  obtain ⟨owner, howner⟩ := Array.mem_iff_getElem?.mp (Array.mem_toList_iff.mp hmem)
  have hyounger : obj < owner := hregular.grounded owner holding howner obj href
  have hholding : holding.destroyed = false := by
    rw [← Bool.not_eq_true]
    exact fun hgone => hpaid owner ⟨holding, howner, hgone, List.ne_nil_of_mem href⟩
  have hthere := (Array.getElem?_eq_some_iff.mp howner).1
  have hless : world.objects.size - owner < age :=
    hage ▸ Nat.sub_lt_sub_left (hyounger.trans hthere) hyounger
  rcases ih _ hless howner hholding rfl with hroot | hchain
  · exact .permanent howner hroot href
  · exact .owned howner hchain href

end World

namespace Books

variable [Resident β] {world : World β} {total : Multiset ObjectId}
  (hbooks : Books world.objects world.log total)
  (hcounted : ∀ body : β, Counted.isPermanent body = false)

include hbooks hcounted

/-- No count of an object that is not permanent was touched that was not above zero. -/
theorem not_violation : ∀ entry ∈ world.log, entry.2.isViolation = false := by
  rintro ⟨thread, event⟩ hentry
  have hpos : ∀ obj count, event = .acquired obj count ∨ event = .released obj count →
      1 ≤ count := by
    intro obj count hevent
    have hlogged : (thread, .acquired obj count) ∈ world.log ∨
        (thread, .released obj count) ∈ world.log := by
      rcases hevent with rfl | rfl
      · exact .inl hentry
      · exact .inr hentry
    obtain ⟨object, -, hfound⟩ := hbooks.found thread obj count hlogged
    exact hfound.resolve_left (by rw [hcounted]; exact Bool.false_ne_true)
  cases event with
  | acquired obj count => exact decide_eq_false (Int.not_le.mpr (hpos obj count (.inl rfl)))
  | released obj count => exact decide_eq_false (Int.not_le.mpr (hpos obj count (.inr rfl)))
  | _ => rfl

/-- Nothing is counted of objects that are all destroyed. -/
theorem total_eq_zero (hgone : ∀ obj object, world.object? obj = some object →
    object.destroyed = true) : world.total = 0 := by
  apply List.sum_eq_zero
  intro count hcount
  obtain ⟨object, hmem, rfl⟩ := List.mem_map.mp hcount
  obtain ⟨obj, hobject⟩ := Array.mem_iff_getElem?.mp (Array.mem_toList_iff.mp hmem)
  obtain ⟨hunits, hnone⟩ := (Object.squares_counted (hcounted object.body)).mp
    (hbooks.squares obj object hobject)
  rw [hunits, hnone.mp (hgone obj object hobject), Nat.cast_zero]

end Books

namespace Totals

/-- What is counted of all events of a log. -/
theorem add_events (world : World β) :
    ((({} : Totals).add world.events).acquired : ℤ) - (({} : Totals).add world.events).released =
        gained world.log ∧
      (({} : Totals).add world.events).violations = world.log.countP (·.2.isViolation) := by
  simp only [Totals.add, World.events, List.countP_map, List.countP_reverse, zero_add, gained_eq]
  exact ⟨rfl, rfl⟩

end Totals

namespace Crew

variable [Resident β] {crew : Crew β}

/-- A world that is cleared is left as it should be. -/
theorem Ended.tornDown {world : World β} (hended : crew.Ended) (haccounted : crew.Accounted)
    (hclears : world.bare.Clears crew.world) (hpersists : world.Persists crew.world) :
    world.TornDown crew.world := by
  have hsound := haccounted.sound.world
  rw [hended.stakes] at hsound
  have hbooks := hsound.books
  have hempty : crew.world.cells = [] ∧ crew.world.holders = [] ∧ crew.world.raws = [] :=
    ⟨hclears.cells, hclears.holders, hclears.raws⟩
  have hanchored (obj : ObjectId) : crew.world.Anchored obj ↔ world.Anchored obj :=
    calc crew.world.Anchored obj
      _ ↔ world.bare.Anchored obj := hclears.anchored_iff hpersists hsound
      _ ↔ world.Anchored obj := ⟨fun hbare => hbare.congr rfl, fun hworld => hworld.congr rfl⟩
  have halive : ∀ obj object, crew.world.object? obj = some object →
      (object.destroyed = false ↔
        Counted.isPermanent object.body = true ∨ world.Anchored obj) := by
    intro obj object hobject
    rw [← hanchored]
    constructor
    · exact haccounted.regular.anchored hsound hempty (hended.not_owes haccounted) hobject
    · rintro (hpermanent | hchain)
      · exact hsound.permanent_live hobject hpermanent
      · exact hchain.live hsound hobject
  constructor
  case empty => exact hempty
  case persists => exact hpersists
  case size => exact hclears.size
  case log => exact hclears.log
  case destroyed =>
    intro obj object hobject hcounted hloose
    have hgone : object.destroyed = true := by
      rw [← Bool.not_eq_false, halive obj object hobject]
      simp [hcounted, hloose]
    refine ⟨hgone, List.count_eq_one_of_mem hbooks.chronicle.orderly.nodup_destroyedIn ?_⟩
    exact (hbooks.destroyed obj).mpr ⟨object, hobject, hgone⟩
  case kept =>
    intro obj object hobject hkept
    have hlive := (halive obj object hobject).mpr hkept
    refine ⟨hlive, List.count_eq_zero.mpr fun hmem => ?_⟩
    obtain ⟨found, hfound, hgone⟩ := (hbooks.destroyed obj).mp hmem
    obtain rfl := Option.some.inj (hfound.symm.trans hobject)
    cases hlive.symm.trans hgone
  case touched => exact hbooks.found
  case even =>
    intro hcounted
    obtain ⟨hgained, hviolated⟩ := Totals.add_events crew.world
    have hfound := hbooks.not_violation hcounted
    have htallied := haccounted.tallied hcounted hfound
    have hloose : ∀ obj, ¬ world.Anchored obj := by
      intro obj hchain
      induction hchain with
      | @permanent _ _ object _ hpermanent => cases (hcounted object.body).symm.trans hpermanent
      | owned _ _ _ ih => exact ih
    have hzero : crew.world.total = 0 := by
      apply hbooks.total_eq_zero hcounted
      intro obj object hobject
      rw [← Bool.not_eq_false, halive obj object hobject]
      simp [hcounted, hloose]
    rw [hviolated, List.countP_eq_zero]
    refine ⟨by linarith only [hgained, htallied, hzero], fun entry hentry => ?_⟩
    rw [hfound entry hentry]
    exact Bool.false_ne_true

/-- The teardown of a world is a run of a thread that clears it. -/
theorem tearDown_eq [Lawful β] (hended : crew.Ended) (haccounted : crew.Accounted) :
    ∃ fuel, crew.world.bare.burden + crew.world.remainder.length ≤ fuel ∧
      crew.world.tearDown = ((clearance crew.world).run (List.replicate fuel 0)).world := by
  let session : Session β :=
    { world := crew.world.bare, main := [.tidy (crew.world.remainder.map .release) .ok] }
  have hsound : session.crew.Sound := (hended.clearance haccounted).sound
  refine ⟨Operation.callWeight * (1 + crew.world.remainder.length) + crew.world.bare.weight, ?_, ?_⟩
  · have hweight := crew.world.bare.burden_le_weight
    simp only [Operation.callWeight]
    omega
  · exact congrArg Crew.world (session.run_crew hsound rfl _)

/-- However threads that perform ordinary operations interleave, once they have ended and all cells,
handles and raw units are given up, everything is destroyed that no permanent object keeps alive,
and no count was ever touched that was not above zero. -/
theorem run_tornDown [Lawful β] {programs : List (List Operation)}
    (hordinary : ∀ ops ∈ programs, Operation.ordinaryAll ops = true) (schedule : List ℕ)
    (hended : ((start programs : Crew β).run schedule).Ended) :
    ((start programs : Crew β).run schedule).world.TornDown
      ((start programs : Crew β).run schedule).world.tearDown := by
  have haccounted := (start_accounted (β := β) hordinary).run schedule
  generalize (start programs : Crew β).run schedule = crew at hended haccounted
  have hclearance := hended.clearance haccounted
  obtain ⟨fuel, hfuel, hteardown⟩ := tearDown_eq hended haccounted
  obtain ⟨hdone, hclears⟩ := hclearance.sound.run_clears fuel rfl rfl
    (.releases crew.world.remainder .ok) (by simpa [Frame.burden, clearance] using hfuel)
  rw [hteardown]
  exact hdone.tornDown (hclearance.run _) hclears (hclearance.sound.persists _)

/-- A permanent object owns a unit on an object that another one owns a unit on too; that one is left
in a cell and as a raw unit. -/
def estate : List Operation :=
  [.alloc (some "a") (some (.int 1)) (some .frozen) [] [],
    .alloc (some "root") (some .null) (some .permanent) [some "a"] [],
    .alloc (some "b") (some (.int 2)) (some .frozen) [some "a"] [],
    .newCell (some "c") .absent (.named "b") (some (some .atomic)) (some .value) none,
    .intoRaw (some "r") (some "b")]

theorem run_tornDown_estate : (∀ ops ∈ [estate], Operation.ordinaryAll ops = true) ∧
    ((start [estate] : Crew Staged).run (List.replicate 12 0)).Ended ∧
      ((start [estate] : Crew Staged).run (List.replicate 12 0)).world.TornDown
        ((start [estate] : Crew Staged).run (List.replicate 12 0)).world.tearDown :=
  have hended : ((start [estate] : Crew Staged).run (List.replicate 12 0)).Ended := by
    decide +kernel
  ⟨by decide, hended, run_tornDown (by decide) (List.replicate 12 0) hended⟩

end Crew

end SharedCell
