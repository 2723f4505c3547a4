import Mathlib
import SharedCell.Proofs.Crew.Teardown
import SharedCell.Proofs.Solo.Conduct

/-!
# Worlds between operations

Between operations nothing is at stake and nothing is left undone: destroyed objects have given up
their units, and no operation has a handle to itself.  What objects count, and which of them are
destroyed, then follows from what owns units outside the heap.  For references go to older objects
only, so that the units on an object are settled by the younger ones that are left.
-/

namespace SharedCell

variable {β : Type} [Resident β] {world next last : World β} {obj : ObjectId} {thread : ℕ}

namespace World

/-! ## Handles -/

/-- Handles that an operation has to itself are in use. -/
def Reserved (world : World β) : Prop :=
  ∀ holder ∈ world.holders, holder.exclusive = true → holder.users ≠ 0

omit [Resident β] in
theorem Reserved.congr (hreserved : world.Reserved) (hholders : next.holders = world.holders) :
    next.Reserved :=
  fun holder hholder => hreserved holder (hholders ▸ hholder)

omit [Resident β] in
theorem Reserved.modifyHolder {change : Holder → Holder} (hreserved : world.Reserved) (id : ℕ)
    (hchange : ∀ holder ∈ world.holders, (change holder).exclusive = true →
      (change holder).users ≠ 0) : (world.modifyHolder id change).Reserved := by
  intro holder hholder hexclusive
  obtain ⟨earlier, hearlier, rfl⟩ := List.mem_map.mp hholder
  split at hexclusive
  · rename_i hid
    rw [if_pos hid]
    exact hchange earlier hearlier hexclusive
  · rename_i hid
    rw [if_neg hid]
    exact hreserved earlier hearlier hexclusive

omit [Resident β] in
theorem Reserved.addHolder (hreserved : world.Reserved) (name : String) (unit : ObjectId) :
    (world.addHolder name unit).Reserved := by
  intro holder hholder hexclusive
  rcases List.mem_cons.mp hholder with rfl | hearlier
  · cases hexclusive
  · exact hreserved holder hearlier hexclusive

omit [Resident β] in
theorem Reserved.eraseHolder (hreserved : world.Reserved) (id : ℕ) :
    (world.eraseHolder id).Reserved :=
  fun holder hholder => hreserved holder (List.mem_filter.mp hholder).1

theorem Change.reserved (hchange : Change thread world next) (hreserved : world.Reserved) :
    next.Reserved := by
  cases hchange with
  | giveUp htake =>
    obtain ⟨object, refs, -, -, rfl⟩ := takeRef_eq_some htake
    exact hreserved
  | addHolder name unit => exact hreserved.addHolder name unit
  | eraseHolder id => exact hreserved.eraseHolder id
  | useHolder id => exact hreserved.modifyHolder id fun _ _ _ => Nat.succ_ne_zero _
  | monopolize id => exact hreserved.modifyHolder id fun _ _ _ => Nat.one_ne_zero
  | store hids name unit =>
    unfold World.store
    split
    · exact hreserved.addHolder name unit
    · rename_i old hold
      have hnameless : (world.modifyHolder old.id ({ · with name := none })).Reserved :=
        hreserved.modifyHolder old.id hreserved
      split
      · exact (hreserved.eraseHolder _).addHolder name unit
      · exact hnameless.addHolder name unit
  | endUse hids id =>
    unfold World.endUse
    split
    · exact hreserved
    · split
      · exact hreserved.eraseHolder id
      · exact hreserved.modifyHolder id fun _ _ hexclusive => nomatch hexclusive
  | _ => exact hreserved

end World

namespace Crew

variable [Lawful β] {crew later : Crew β}

omit [Lawful β] in
theorem Sound.reserved_step (hsound : crew.Sound) (hreserved : crew.world.Reserved)
    (hstep : crew.step thread = some later) : later.world.Reserved := by
  obtain ⟨agenda, world, rest, hagenda, hframe, rfl⟩ := step_eq_some hstep
  exact Frame.step_keeps (fun _ _ => World.Change.reserved)
    (fun world obj hreserved => hreserved.congr (by rw [World.release_eq]; rfl))
    (fun _ _ _ hreserved => hreserved) hsound.world
    (hsound.ordinary_agenda (List.mem_of_getElem? hagenda)) hframe hreserved

theorem Sound.reserved_run (hsound : crew.Sound) (hreserved : crew.world.Reserved)
    (schedule : List ℕ) : (crew.run schedule).world.Reserved :=
  hsound.run_keeps (fun later => later.world.Reserved)
    (fun _ _ _ hsound hreserved hstep => hsound.reserved_step hreserved hstep) hreserved schedule

end Crew

/-! ## Resting worlds -/

namespace World

/-- A world in which no operation is under way, and none has left anything undone. -/
structure Resting (world : World β) : Prop where
  accounted : Crew.Accounted { world, agendas := [] }
  reserved : world.Reserved

namespace Resting

variable (hresting : world.Resting)

include hresting

theorem sound : world.Sound 0 := hresting.accounted.sound.world

/-- Destroyed objects own nothing. -/
theorem refs_eq {object : Object β} (hobject : world.object? obj = some object)
    (hdestroyed : object.destroyed = true) : object.refs = [] := by
  by_contra hrefs
  obtain ⟨frame, hframe, -⟩ := hresting.accounted.settled obj ⟨object, hobject, hdestroyed, hrefs⟩
  cases hframe

theorem named : ∀ holder ∈ world.holders, holder.name ≠ none :=
  hresting.sound.named hresting.accounted.regular

theorem shared : ∀ holder ∈ world.holders, holder.exclusive = false := by
  intro holder hholder
  rw [← Bool.not_eq_true]
  exact fun hexclusive => hresting.reserved holder hholder hexclusive
    (hresting.sound.held.users holder hholder)

end Resting

end World

/-- Threads that have ended leave a world in which no operation is under way. -/
theorem Crew.Ended.resting {crew : Crew β} (hended : crew.Ended) (haccounted : crew.Accounted)
    (hreserved : crew.world.Reserved) : crew.world.Resting where
  accounted :=
    { sound :=
        { world := by
            have hsound := haccounted.sound.world
            rwa [hended.stakes] at hsound
          ordinary := fun _ hframe => nomatch hframe }
      regular := haccounted.regular
      tallied := haccounted.tallied
      settled := fun obj howes => absurd howes (hended.not_owes haccounted obj) }
  reserved := hreserved

/-- An operation that comes to its end leaves nothing undone. -/
theorem Operation.Performs.resting [Lawful β] {op : Operation} {reply : Reply}
    (hperforms : op.Performs world next reply) (hresting : world.Resting)
    (hordinary : op.ordinary = true) : next.Resting := by
  -- The only operation of a thread, with what the thread makes of its reply.
  let crew : Crew β := Solo.crew (world, [.rounds 0 [] [op] []])
  have haccounted : crew.Accounted :=
    { sound :=
        { world := hresting.sound
          ordinary := by
            simpa [crew, Solo.crew, Frame.ordinary, ordinaryAll] using hordinary }
      regular := hresting.accounted.regular
      tallied := hresting.accounted.tallied
      settled := fun obj howes => by
        obtain ⟨frame, hframe, -⟩ := hresting.accounted.settled obj howes
        cases hframe }
  obtain ⟨count, hcount⟩ := hperforms [.rounds 0 [] [] []]
  have hend : Solo.advance Solo.next (count + 3) (world, [.rounds 0 [] [op] []]) =
      (next, [.tidy [] (.all [reply])]) := by
    have hbegin : Solo.next (world, [.rounds 0 [] [op] []]) =
        some ((op.start 0 world).1, [(op.start 0 world).2, .rounds 0 [] [] []]) := rfl
    rw [show count + 3 = (count + 2) + 1 from rfl, Solo.advance, hbegin, Option.getD_some,
      Solo.advance_add, hcount]
    rfl
  have hlast : crew.run (List.replicate (count + 3) 0) =
      Solo.crew (next, [.tidy [] (.all [reply])]) := by
    rw [Solo.crew_run, hend]
  have hended : (Solo.crew (next, [.tidy [] (.all [reply])])).Ended := by
    intro agenda hagenda
    obtain rfl := List.mem_singleton.mp hagenda
    rfl
  exact hended.resting (hlast ▸ haccounted.run (List.replicate (count + 3) 0))
    (by simpa only [hlast] using
      haccounted.sound.reserved_run hresting.reserved (List.replicate (count + 3) 0))

/-! ## What owns units outside the heap -/

namespace World

/-- The units of handles, of raw units and of cells. -/
def roots (world : World β) : Multiset ObjectId :=
  (world.holders.map Holder.unit : Multiset ObjectId) +
    (world.raws.map Prod.snd : Multiset ObjectId) +
    (world.cells : Multiset (String × Cell)).bind fun entry => entry.2.slot.units

omit [Resident β] in
theorem count_owned (world : World β) (obj : ObjectId) :
    world.owned.count obj =
      world.roots.count obj + (world.objects.toList.map (·.refs.count obj)).sum := by
  rw [owned, roots, Multiset.count_add, Multiset.count_bind, Multiset.map_coe, Multiset.sum_coe]
  simp only [Multiset.coe_count]

/-- Objects are what they were but for their counts, and only destroyed ones have given up units. -/
structure Sheds (world next : World β) : Prop where
  size : next.objects.size = world.objects.size
  facts : next.facts = world.facts
  shape : next.shape = world.shape
  kept : ∀ obj object, next.object? obj = some object → ∃ earlier,
    world.object? obj = some earlier ∧ earlier.script = object.script ∧
      object.refs ⊆ earlier.refs ∧
      (object.destroyed = false → earlier.refs = object.refs ∧ earlier.destroyed = false)

namespace Sheds

theorem of_objects (hobjects : next.objects = world.objects) : world.Sheds next where
  size := congrArg Array.size hobjects
  facts := by
    funext obj
    rw [World.facts, World.facts, object?, object?, hobjects]
  shape := by
    funext layout obj
    rw [World.shape, World.shape, object?, object?, hobjects]
  kept obj object hobject := by
    rw [object?, hobjects] at hobject
    exact ⟨object, hobject, rfl, fun _ hmem => hmem, fun hlive => ⟨rfl, hlive⟩⟩

theorem refl (world : World β) : world.Sheds world := .of_objects rfl

theorem trans (hfirst : world.Sheds next) (hsecond : next.Sheds last) : world.Sheds last where
  size := hsecond.size.trans hfirst.size
  facts := hsecond.facts.trans hfirst.facts
  shape := hsecond.shape.trans hfirst.shape
  kept obj object hobject := by
    obtain ⟨between, hbetween, hscript, hrefs, hlive⟩ := hsecond.kept obj object hobject
    obtain ⟨earlier, hearlier, hearly, hfewer, hstill⟩ := hfirst.kept obj between hbetween
    refine ⟨earlier, hearlier, hearly.trans hscript, fun _ hmem => hfewer (hrefs hmem),
      fun hlast => ?_⟩
    obtain ⟨hrefs, hdestroyed⟩ := hlive hlast
    obtain ⟨hbefore, hgone⟩ := hstill hdestroyed
    exact ⟨hbefore.trans hrefs, hgone⟩

theorem modifyObject {change : Object β → Object β}
    (hfacts : ∀ object, Resident.facts (change object).body = Resident.facts object.body)
    (hshape : ∀ object layout,
      Resident.shape layout (change object).body = Resident.shape layout object.body)
    (hscript : ∀ object, (change object).script = object.script)
    (hrefs : ∀ object, world.object? obj = some object → (change object).refs ⊆ object.refs)
    (hkept : ∀ object, world.object? obj = some object → (change object).destroyed = false →
      object.refs = (change object).refs ∧ object.destroyed = false) :
    world.Sheds (world.modifyObject obj change) where
  size := Array.size_modify
  facts := facts_modifyObject hfacts
  shape := shape_modifyObject hshape
  kept other object hobject := by
    rw [object?, Books.getElem?_modifyObject] at hobject
    split at hobject
    · rename_i hsame
      subst hsame
      obtain ⟨earlier, hearlier, rfl⟩ := Option.map_eq_some_iff.mp hobject
      exact ⟨earlier, hearlier, (hscript earlier).symm, hrefs earlier hearlier,
        hkept earlier hearlier⟩
    · exact ⟨object, hobject, rfl, fun _ hmem => hmem, fun hlive => ⟨rfl, hlive⟩⟩

variable [Lawful β] [Reticent β]

theorem acquire (world : World β) (thread : ℕ) (obj : ObjectId) :
    world.Sheds (world.acquire thread obj) := by
  have hmodified : world.Sheds (world.modifyObject obj fun object =>
      { object with body := Counted.acquire object.body }) :=
    modifyObject (fun object => Lawful.facts_acquire object.body)
      (fun object layout => Reticent.shape_acquire layout object.body) (fun _ => rfl)
      (fun _ _ _ hmem => hmem) fun _ _ hlive => ⟨rfl, hlive⟩
  exact hmodified.trans (of_objects rfl)

theorem release (world : World β) (thread : ℕ) (obj : ObjectId) :
    world.Sheds (world.release thread obj) := by
  have hmodified : world.Sheds (world.modifyObject obj fun object =>
      { object with
        body := (Counted.release object.body).1
        destroyed := object.destroyed || world.isLast obj }) :=
    modifyObject (fun object => Lawful.facts_release object.body)
      (fun object layout => Reticent.shape_release layout object.body) (fun _ => rfl)
      (fun _ _ _ hmem => hmem) fun _ _ hlive => ⟨rfl, (Bool.or_eq_false_iff.mp hlive).1⟩
  rw [release_eq]
  exact hmodified.trans (of_objects rfl)

omit [Lawful β] [Reticent β] in
/-- Destroyed objects give up their references. -/
theorem takeRef {owner ref : ObjectId} (hgone : world.Gone owner)
    (htake : world.takeRef owner = some (next, ref)) : world.Sheds next := by
  obtain ⟨object, refs, hobject, hrefs, rfl⟩ := takeRef_eq_some htake
  obtain ⟨found, hfound, hdestroyed⟩ := hgone
  refine modifyObject (fun _ => rfl) (fun _ _ => rfl) (fun _ => rfl) (fun earlier hearlier => ?_)
    fun earlier hearlier hlive => ?_
  · obtain rfl := Option.some.inj (hobject.symm.trans hearlier)
    rw [hrefs]
    exact fun _ hmem => List.mem_cons_of_mem ref hmem
  · obtain rfl := Option.some.inj (hfound.symm.trans hearlier)
    cases hdestroyed.symm.trans hlive

end Sheds

/-! ## Settled heaps -/

section Settled

variable {here there : World β}

/-- What is counted is settled by the units that there are. -/
theorem Resting.object_settled (hhere : here.Resting) (hthere : there.Resting)
    (hfacts : here.facts = there.facts) (hcount : here.owned.count obj = there.owned.count obj)
    {object other : Object β} (hobject : here.object? obj = some object)
    (hother : there.object? obj = some other) :
    Resident.count object.body = Resident.count other.body ∧ object.destroyed = other.destroyed := by
  have hpermanent : Counted.isPermanent object.body = Counted.isPermanent other.body := by
    have hsame := congrArg Facts.permanent (congrFun hfacts obj)
    rwa [World.facts, World.facts, hobject, hother] at hsame
  have hsquares := hhere.sound.books.squares obj object hobject
  have hothers := hthere.sound.books.squares obj other hother
  rw [Stakes.inHand_zero, add_zero] at hsquares hothers
  cases hcounted : Counted.isPermanent other.body with
  | true =>
    obtain ⟨hnone, hlive⟩ := (Object.squares_permanent (hpermanent.trans hcounted)).mp hsquares
    obtain ⟨hzero, hstill⟩ := (Object.squares_permanent hcounted).mp hothers
    exact ⟨hnone.trans hzero.symm, hlive.trans hstill.symm⟩
  | false =>
    obtain ⟨hunits, hgone⟩ := (Object.squares_counted (hpermanent.trans hcounted)).mp hsquares
    obtain ⟨hsame, hlost⟩ := (Object.squares_counted hcounted).mp hothers
    rw [hcount] at hunits hgone
    exact ⟨hunits.trans hsame.symm, Bool.eq_iff_iff.mpr (hgone.trans hlost.symm)⟩

variable (hhere : here.Resting) (hthere : there.Resting) (hleft : world.Sheds here)
  (hright : world.Sheds there)
  (hroots : ∀ obj, here.roots.count obj = there.roots.count obj)

include hhere hthere hleft hright hroots

/-- Two worlds that have come of one have the same units, if the same is owned outside their heaps. -/
theorem Resting.count_owned_eq (obj : ObjectId) :
    here.owned.count obj = there.owned.count obj := by
  have hfacts : here.facts = there.facts := hleft.facts.trans hright.facts.symm
  have hsize : here.objects.size = there.objects.size := hleft.size.trans hright.size.symm
  -- The induction goes from the youngest object to the oldest one.
  induction hage : here.objects.size - obj using Nat.strong_induction_on generalizing obj with
  | _ age ih =>
    rw [count_owned, count_owned, hroots]
    refine congrArg (there.roots.count obj + List.sum ·) (List.ext_getElem (by simpa) ?_)
    intro owner howner howner'
    rw [List.getElem_map, List.getElem_map, Array.getElem_toList, Array.getElem_toList]
    rw [List.length_map, Array.length_toList] at howner howner'
    have hobject : here.object? owner = some here.objects[owner] := Array.getElem?_eq_getElem howner
    have hother : there.object? owner = some there.objects[owner] :=
      Array.getElem?_eq_getElem howner'
    rcases Nat.lt_or_ge obj owner with hyounger | holder
    · -- References of younger objects are kept while these are not destroyed.
      have hcount := ih (here.objects.size - owner) (by omega) owner rfl
      obtain ⟨-, hdestroyed⟩ := hhere.object_settled hthere hfacts hcount hobject hother
      cases hgone : here.objects[owner].destroyed with
      | true =>
        rw [hhere.refs_eq hobject hgone, hthere.refs_eq hother (hdestroyed ▸ hgone)]
      | false =>
        obtain ⟨first, hfirst, -, -, hkept⟩ := hleft.kept owner _ hobject
        obtain ⟨second, hsecond, -, -, hstill⟩ := hright.kept owner _ hother
        obtain rfl := Option.some.inj (hfirst.symm.trans hsecond)
        rw [← (hkept hgone).1, ← (hstill (hdestroyed ▸ hgone)).1]
    · -- Objects own units on older ones only.
      rw [List.count_eq_zero.mpr fun hmem =>
          holder.not_gt (hhere.accounted.regular.grounded owner _ hobject obj hmem),
        List.count_eq_zero.mpr fun hmem =>
          holder.not_gt (hthere.accounted.regular.grounded owner _ hother obj hmem)]

/-- So their objects count the same, and the same objects are destroyed. -/
theorem Resting.settled_eq (obj : ObjectId) :
    here.count obj = there.count obj ∧ (here.Gone obj ↔ there.Gone obj) := by
  have hcount := hhere.count_owned_eq hthere hleft hright hroots obj
  have hfacts : here.facts = there.facts := hleft.facts.trans hright.facts.symm
  rw [World.count, World.count, Gone, Gone]
  rcases Nat.lt_or_ge obj here.objects.size with hlt | hge
  · have hlt' : obj < there.objects.size := by rwa [hright.size, ← hleft.size]
    have hobject : here.object? obj = some here.objects[obj] := Array.getElem?_eq_getElem hlt
    have hother : there.object? obj = some there.objects[obj] := Array.getElem?_eq_getElem hlt'
    obtain ⟨hunits, hdestroyed⟩ := hhere.object_settled hthere hfacts hcount hobject hother
    rw [hobject, hother]
    refine ⟨hunits, ?_⟩
    simp only [Option.some.injEq, exists_eq_left', hdestroyed]
  · have hge' : there.objects.size ≤ obj := by rwa [hright.size, ← hleft.size]
    have hobject : here.object? obj = none := Array.getElem?_eq_none hge
    have hother : there.object? obj = none := Array.getElem?_eq_none hge'
    rw [hobject, hother]
    simp

end Settled

end World

end SharedCell
