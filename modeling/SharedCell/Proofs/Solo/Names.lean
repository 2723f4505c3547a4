import Mathlib
import SharedCell.Proofs.Ownership.Settled
import SharedCell.Proofs.Solo.Arguments

/-!
# What names stand for

To a program, a world is what the names of cells and handles stand for.  When objects perform no
scripts, an operation changes what it says it changes, and nothing else: a unit that is given back
concerns objects only, and a handle that is overwritten while it is in use is given up without a
name.
-/

namespace SharedCell

variable {β : Type}

namespace World

variable {world next last : World β} {name : String} {unit : ObjectId} {holder : Holder}

/-- The object of the handle of a name. -/
def unit? (world : World β) (name : String) : Option ObjectId :=
  (world.holder? name).map (·.unit)

/-- The units of the handles that have names. -/
def kept (world : World β) : Multiset ObjectId :=
  ((world.holders.filter (·.name.isSome)).map Holder.unit : List ObjectId)

/-- Handles can be told apart. -/
structure Distinct (world : World β) : Prop where
  ids : (world.holders.map Holder.id).Nodup
  fresh : ∀ holder ∈ world.holders, holder.id < world.nextHolder

/-- Whatever names they have, the handles that were there have the units that they had. -/
structure Inherits (world next : World β) : Prop where
  le : world.nextHolder ≤ next.nextHolder
  units : ∀ holder ∈ next.holders, holder.id < world.nextHolder →
    ∃ earlier ∈ world.holders, earlier.id = holder.id ∧ earlier.unit = holder.unit

/-- The names of handles stand for what they stood for. -/
structure Retains (world next : World β) : Prop where
  units : next.unit? = world.unit?
  kept : next.kept = world.kept
  distinct : next.Distinct
  inherits : world.Inherits next

/-! ## Handles -/

namespace Inherits

theorem of_holders (hholders : next.holders = world.holders)
    (hnext : next.nextHolder = world.nextHolder) : world.Inherits next where
  le := hnext.ge
  units holder hholder _ := ⟨holder, hholders ▸ hholder, rfl, rfl⟩

theorem trans (hfirst : world.Inherits next) (hsecond : next.Inherits last) :
    world.Inherits last where
  le := hfirst.le.trans hsecond.le
  units holder hholder hlt := by
    obtain ⟨between, hbetween, hid, hunit⟩ :=
      hsecond.units holder hholder (hlt.trans_le hfirst.le)
    obtain ⟨earlier, hearlier, hsame, hunits⟩ := hfirst.units between hbetween (hid ▸ hlt)
    exact ⟨earlier, hearlier, hsame.trans hid, hunits.trans hunit⟩

theorem map {change : Holder → Holder}
    (hchange : ∀ holder, (change holder).id = holder.id ∧ (change holder).unit = holder.unit) :
    world.Inherits { world with holders := world.holders.map change } where
  le := le_rfl
  units holder hholder _ := by
    obtain ⟨earlier, hearlier, rfl⟩ := List.mem_map.mp hholder
    exact ⟨earlier, hearlier, (hchange earlier).1.symm, (hchange earlier).2.symm⟩

theorem eraseHolder (world : World β) (id : ℕ) : world.Inherits (world.eraseHolder id) where
  le := le_rfl
  units holder hholder _ := ⟨holder, (List.mem_filter.mp hholder).1, rfl, rfl⟩

/-- A new handle can be told from those that were there. -/
theorem addHolder (world : World β) (name : String) (unit : ObjectId) :
    world.Inherits (world.addHolder name unit) where
  le := Nat.le_succ world.nextHolder
  units holder hholder hlt := by
    rcases List.mem_cons.mp hholder with rfl | hearlier
    · exact absurd hlt (lt_irrefl world.nextHolder)
    · exact ⟨holder, hearlier, rfl, rfl⟩

theorem store (world : World β) (name : String) (unit : ObjectId) :
    world.Inherits (world.store name unit).1 := by
  unfold World.store
  split
  · exact addHolder world name unit
  · split
    · exact (eraseHolder world _).trans (addHolder _ name unit)
    · exact (map fun holder => by split <;> exact ⟨rfl, rfl⟩).trans (addHolder _ name unit)

end Inherits

/-- Handles that change keep their names and their units. -/
theorem retains_map (hdistinct : world.Distinct) (change : Holder → Holder)
    (hchange : ∀ holder, (change holder).id = holder.id ∧ (change holder).name = holder.name ∧
      (change holder).unit = holder.unit) :
    world.Retains { world with holders := world.holders.map change } where
  units := by
    funext name
    simp only [unit?, holder?, List.find?_map, Option.map_map]
    have hname : ((·.name == some name) ∘ change) = fun holder : Holder => holder.name == some name :=
      funext fun holder => by rw [Function.comp_apply, (hchange holder).2.1]
    rw [hname]
    exact Option.map_congr fun holder _ => (hchange holder).2.2
  kept := by
    have hname : ((·.name.isSome) ∘ change) = fun holder : Holder => holder.name.isSome :=
      funext fun holder => by rw [Function.comp_apply, (hchange holder).2.1]
    have hunit : Holder.unit ∘ change = Holder.unit := funext fun holder => (hchange holder).2.2
    rw [World.kept, List.filter_map, hname, List.map_map, hunit]
    rfl
  distinct := by
    have hid : Holder.id ∘ change = Holder.id := funext fun holder => (hchange holder).1
    constructor
    · rw [List.map_map, hid]
      exact hdistinct.ids
    · intro holder hholder
      obtain ⟨earlier, hearlier, rfl⟩ := List.mem_map.mp hholder
      rw [(hchange earlier).1]
      exact hdistinct.fresh earlier hearlier
  inherits := .map fun holder => ⟨(hchange holder).1, (hchange holder).2.2⟩

theorem retains_lend (hdistinct : world.Distinct) (ids : List ℕ) : world.Retains (world.lend ids) :=
  retains_map hdistinct _ fun _ => ⟨rfl, rfl, rfl⟩

/-- The place of a handle among those that can be told from it. -/
theorem Distinct.exists_place (hdistinct : world.Distinct) (hholder : holder ∈ world.holders) :
    ∃ before after, world.holders = before ++ holder :: after ∧
      world.holders.filter (·.id != holder.id) = before ++ after ∧
      ∀ change : Holder → Holder, (world.modifyHolder holder.id change).holders =
        before ++ change holder :: after := by
  obtain ⟨before, after, hplace, hothers⟩ := exists_keyed Holder.id hdistinct.ids hholder
  refine ⟨before, after, hplace, ?_, fun change => ?_⟩
  · rw [hplace, filter_keyed hothers]
  · rw [modifyHolder, hplace, map_keyed hothers]

theorem Distinct.erase (hdistinct : world.Distinct) (id : ℕ) : (world.eraseHolder id).Distinct where
  ids := hdistinct.ids.sublist (List.filter_sublist.map _)
  fresh holder hholder := hdistinct.fresh holder (List.mem_filter.mp hholder).1

/-- A handle without a name that is given up. -/
theorem retains_erase (hdistinct : world.Distinct) (hholder : holder ∈ world.holders)
    (hnameless : holder.name = none) : world.Retains (world.eraseHolder holder.id) := by
  obtain ⟨before, after, hplace, hfilter, -⟩ := hdistinct.exists_place hholder
  constructor
  · funext name
    rw [unit?, unit?, holder?, holder?, eraseHolder, hfilter, hplace, List.find?_append,
      List.find?_append, List.find?_cons, hnameless]
    rfl
  · rw [kept, kept, eraseHolder, hfilter, hplace, List.filter_append, List.filter_append,
      List.filter_cons, hnameless]
    rfl
  · exact hdistinct.erase holder.id
  · exact .eraseHolder world holder.id

theorem retains_endUse (hdistinct : world.Distinct) (id : ℕ) :
    world.Retains (world.endUse id).1 := by
  unfold endUse
  split
  · exact ⟨rfl, rfl, hdistinct, .of_holders rfl rfl⟩
  · rename_i holder hfound
    have hholder := List.mem_of_find?_eq_some hfound
    obtain rfl : holder.id = id := by simpa using List.find?_some hfound
    split
    · rename_i hover
      exact retains_erase hdistinct hholder
        (Option.isNone_iff_eq_none.mp (Bool.and_eq_true_iff.mp hover).2)
    · exact retains_map hdistinct _ fun holder => by split <;> exact ⟨rfl, rfl, rfl⟩

/-- A new handle stands before all others. -/
theorem addHolder_units (world : World β) (name : String) (unit : ObjectId) :
    (world.addHolder name unit).unit? = Function.update world.unit? name (some unit) := by
  funext other
  rw [unit?, holder?, addHolder, List.find?_cons]
  by_cases hsame : other = name
  · subst hsame
    rw [Function.update_self, beq_self_eq_true]
    rfl
  · rw [Function.update_of_ne hsame,
      show ((some name == some other) : Bool) = false by simp [Ne.symm hsame]]
    rfl

theorem Distinct.addHolder (hdistinct : world.Distinct) (name : String) (unit : ObjectId) :
    (world.addHolder name unit).Distinct where
  ids := by
    rw [World.addHolder, List.map_cons, List.nodup_cons]
    refine ⟨fun hmem => ?_, hdistinct.ids⟩
    obtain ⟨holder, hholder, hid⟩ := List.mem_map.mp hmem
    exact (hdistinct.fresh holder hholder).ne hid
  fresh holder hholder := by
    rcases List.mem_cons.mp hholder with rfl | hearlier
    · exact Nat.lt_succ_self world.nextHolder
    · exact Nat.lt_succ_of_lt (hdistinct.fresh holder hearlier)

/-- A handle loses its name, whether it is erased or still in use. -/
theorem unname (hdistinct : world.Distinct) (hfound : world.holder? name = some holder) :
    ∀ between : World β, between = world.eraseHolder holder.id ∨
        between = world.modifyHolder holder.id ({ · with name := none }) →
      between.Distinct ∧ holder.unit ::ₘ between.kept = world.kept ∧
        ∀ other, other ≠ name → between.unit? other = world.unit? other := by
  have hholder := List.mem_of_find?_eq_some hfound
  have hname : holder.name = some name := by simpa using List.find?_some hfound
  obtain ⟨before, after, hplace, hfilter, hmodify⟩ := hdistinct.exists_place hholder
  have hkept : world.kept = holder.unit ::ₘ
      (((before ++ after).filter (·.name.isSome)).map Holder.unit : List ObjectId) := by
    rw [kept, hplace, List.filter_append, List.filter_cons, if_pos (by rw [hname]; rfl),
      List.filter_append, List.map_append, List.map_cons, Multiset.cons_coe, List.map_append]
    exact Multiset.coe_eq_coe.mpr List.perm_middle
  have hunit (other : String) (hne : other ≠ name) : world.unit? other =
      (((before ++ after).find? (·.name == some other)).map (·.unit)) := by
    rw [unit?, holder?, hplace, List.find?_append, List.find?_append, List.find?_cons, hname,
      show ((some name == some other) : Bool) = false by simp [Ne.symm hne]]
  rintro between (rfl | rfl)
  · refine ⟨hdistinct.erase holder.id, ?_, fun other hne => ?_⟩
    · rw [hkept, kept, eraseHolder, hfilter]
    · rw [hunit other hne, unit?, holder?, eraseHolder, hfilter]
  · refine ⟨?_, ?_, fun other hne => ?_⟩
    · constructor
      · rw [hmodify]
        have hids := hdistinct.ids
        rw [hplace] at hids
        simpa using hids
      · intro other hother
        obtain ⟨earlier, hearlier, rfl⟩ := List.mem_map.mp hother
        have hlt := hdistinct.fresh earlier hearlier
        split <;> exact hlt
    · rw [hkept, kept, hmodify, List.filter_append, List.filter_cons, List.filter_append]
      rfl
    · rw [hunit other hne, unit?, holder?, hmodify, List.find?_append, List.find?_append,
        List.find?_cons]
      rfl

/-- A unit that is stored takes the place of what the name stood for. -/
theorem store_units (hdistinct : world.Distinct) (name : String) (unit : ObjectId) :
    (world.store name unit).1.unit? = Function.update world.unit? name (some unit) ∧
      (world.store name unit).1.kept + ↑(world.unit? name).toList = world.kept + {unit} ∧
      (world.store name unit).1.Distinct := by
  have hadd (between : World β) : (between.addHolder name unit).kept = between.kept + {unit} := by
    rw [kept, addHolder, List.filter_cons, if_pos (show (some name).isSome = true from rfl),
      List.map_cons, ← Multiset.cons_coe, ← Multiset.singleton_add, add_comm]
    rfl
  unfold store
  split
  · rename_i hnone
    refine ⟨world.addHolder_units name unit, ?_, hdistinct.addHolder name unit⟩
    rw [hadd, unit?, hnone]
    exact add_zero _
  · rename_i old hfound
    have hunit : world.unit? name = some old.unit := by rw [unit?, hfound, Option.map_some]
    have hplaced (between : World β) (hbetween : between.Distinct ∧
        old.unit ::ₘ between.kept = world.kept ∧
          ∀ other, other ≠ name → between.unit? other = world.unit? other) :
        (between.addHolder name unit).unit? = Function.update world.unit? name (some unit) ∧
          (between.addHolder name unit).kept + ↑(world.unit? name).toList =
            world.kept + {unit} ∧ (between.addHolder name unit).Distinct := by
      obtain ⟨hdistinct, hkept, hothers⟩ := hbetween
      refine ⟨?_, ?_, hdistinct.addHolder name unit⟩
      · rw [addHolder_units]
        funext other
        by_cases hsame : other = name
        · rw [hsame, Function.update_self, Function.update_self]
        · rw [Function.update_of_ne hsame, Function.update_of_ne hsame, hothers other hsame]
      · rw [hadd, hunit, ← hkept, Option.toList_some, Multiset.coe_singleton, add_right_comm,
          add_comm between.kept, Multiset.singleton_add]
    split
    · exact hplaced _ (unname hdistinct hfound _ (.inl rfl))
    · exact hplaced _ (unname hdistinct hfound _ (.inr rfl))

end World

/-! ## Units that are given back -/

variable [Resident β] {world next last : World β} {among : Set ObjectId}

namespace World

/-- Objects that perform nothing when they are destroyed, and that own units on such objects
only. -/
structure Unscripted (world : World β) (among : Set ObjectId) : Prop where
  scripts : ∀ obj ∈ among, ∀ object, world.object? obj = some object → object.script = []
  refs : ∀ obj ∈ among, ∀ object, world.object? obj = some object →
    ∀ ref ∈ object.refs, ref ∈ among

omit [Resident β] in
/-- That objects perform nothing can be checked. -/
theorem unscripted_of_all {objs : List ObjectId} (hall : ∀ obj ∈ objs,
    (world.object? obj).all (fun object => object.script.isEmpty && object.refs.all (· ∈ objs)) =
      true) : world.Unscripted {obj | obj ∈ objs} where
  scripts obj hobj object hobject := by
    have hchecked := hall obj hobj
    rw [hobject, Option.all_some, Bool.and_eq_true] at hchecked
    exact List.isEmpty_iff.mp hchecked.1
  refs obj hobj object hobject ref href := by
    have hchecked := hall obj hobj
    rw [hobject, Option.all_some, Bool.and_eq_true] at hchecked
    exact of_decide_eq_true (List.all_eq_true.mp hchecked.2 ref href)

theorem Sheds.unscripted (hsheds : world.Sheds next) (hunscripted : world.Unscripted among) :
    next.Unscripted among where
  scripts obj hamong object hobject := by
    obtain ⟨earlier, hearlier, hscript, -⟩ := hsheds.kept obj object hobject
    exact hscript ▸ hunscripted.scripts obj hamong earlier hearlier
  refs obj hamong object hobject ref href := by
    obtain ⟨earlier, hearlier, -, hrefs, -⟩ := hsheds.kept obj object hobject
    exact hunscripted.refs obj hamong earlier hearlier ref (hrefs href)

/-- What is destroyed stays so. -/
theorem Sheds.gone {obj : ObjectId} (hsheds : world.Sheds next) (hgone : world.Gone obj) :
    next.Gone obj := by
  obtain ⟨object, hobject, hdestroyed⟩ := hgone
  have hlt : obj < next.objects.size := by
    rw [hsheds.size]
    exact (Array.getElem?_eq_some_iff.mp hobject).1
  obtain ⟨later, hlater⟩ : ∃ later, next.object? obj = some later :=
    ⟨_, Array.getElem?_eq_getElem hlt⟩
  obtain ⟨earlier, hearlier, -, -, hlive⟩ := hsheds.kept obj later hlater
  refine ⟨later, hlater, ?_⟩
  by_contra hstill
  obtain rfl := Option.some.inj (hobject.symm.trans hearlier)
  cases hdestroyed.symm.trans (hlive (Bool.eq_false_iff.mpr hstill)).2

/-- Units are acquired and given back, and nothing else happens. -/
structure Spends (world next : World β) : Prop where
  sheds : world.Sheds next
  rest : ∃ objects log, next = { world with objects, log }

namespace Spends

theorem refl (world : World β) : world.Spends world :=
  ⟨.refl world, world.objects, world.log, rfl⟩

theorem trans (hfirst : world.Spends next) (hsecond : next.Spends last) : world.Spends last := by
  obtain ⟨hearly, _, _, rfl⟩ := hfirst
  obtain ⟨hlate, objects, log, rfl⟩ := hsecond
  exact ⟨hearly.trans hlate, objects, log, rfl⟩

theorem trace (world : World β) (thread : ℕ) (event : Event) :
    world.Spends (world.trace thread event) := by
  obtain ⟨log, htraced⟩ := world.exists_traced thread event
  rw [htraced]
  exact ⟨.of_objects rfl, world.objects, log, rfl⟩

theorem ask (world : World β) (thread : ℕ) (guard : Guard) (obj : ObjectId) :
    world.Spends (world.ask thread guard obj) := by
  obtain ⟨log, hasked⟩ := world.exists_asked thread guard obj
  rw [hasked]
  exact ⟨.of_objects rfl, world.objects, log, rfl⟩

variable [Lawful β] [Reticent β]

theorem letGo (world : World β) (thread : ℕ) (unit : ObjectId) :
    world.Spends (world.letGo thread unit).1 :=
  ⟨.release world thread unit, (world.release thread unit).objects, (world.release thread unit).log,
    by
      rw [World.letGo, release_eq]
      rfl⟩

theorem letGo? (world : World β) (thread : ℕ) (unit : Option ObjectId) :
    world.Spends (world.letGo? thread unit).1 := by
  cases unit with
  | none => exact refl world
  | some unit => exact letGo world thread unit

theorem undergo (world : World β) (guard : Guard) (effects : List Effect) :
    world.Spends (world.undergo guard effects) := by
  induction effects generalizing world with
  | nil => exact refl world
  | cons effect effects ih =>
    refine trans ?_ (ih (Call.apply world 0 guard effect).1)
    cases effect with
    | acquire obj =>
      exact ⟨Sheds.acquire world 0 obj, (world.acquire 0 obj).objects, (world.acquire 0 obj).log, rfl⟩
    | release obj => exact letGo world 0 obj
    | ask obj => exact ask world 0 guard obj
    | reject obj => exact trace world 0 (.rejected obj)
    | retry observed current attempt => exact trace world 0 (.retried observed current attempt)
    | wait version rounds => exact trace world 0 (.waited version rounds)

end Spends

end World

/-- A destroyed object among some objects has nothing to do but to give up its units. -/
def Frame.Spent (world : World β) (among : Set ObjectId) : Frame → Prop
  | .script owner ops => ops = [] ∧ owner ∈ among ∧ world.Gone owner
  | .surrender owner => owner ∈ among ∧ world.Gone owner
  | _ => False

omit [Resident β] in
theorem Frame.Spent.mono {frame : Frame} (hspent : frame.Spent world among)
    (hgone : ∀ obj, world.Gone obj → next.Gone obj) : frame.Spent next among := by
  cases frame with
  | script owner ops => exact ⟨hspent.1, hspent.2.1, hgone owner hspent.2.2⟩
  | surrender owner => exact ⟨hspent.1, hgone owner hspent.2⟩
  | _ => exact hspent.elim

variable [Lawful β] [Reticent β]

omit [Lawful β] [Reticent β] in
theorem World.letGo_spent (hunscripted : world.Unscripted among) (thread : ℕ) {unit : ObjectId}
    (hamong : unit ∈ among) :
    ∀ frame ∈ (world.letGo thread unit).2, frame.Spent (world.letGo thread unit).1 among := by
  intro frame hframe
  simp only [World.letGo] at hframe
  split at hframe
  · rename_i object hlast hobject
    have hgone : (world.release thread unit).Gone unit := by
      let change (object : Object β) : Object β :=
        { object with
          body := (Counted.release object.body).1
          destroyed := object.destroyed || world.isLast unit }
      have hchanged : (world.modifyObject unit change).object? unit = some (change object) := by
        rw [World.object?, Books.getElem?_modifyObject, if_pos rfl,
          show world.objects[unit]? = some object from hobject, Option.map_some]
      rw [World.release_eq]
      exact ⟨change object, hchanged, Bool.or_eq_true_iff.mpr (.inr hlast)⟩
    obtain rfl := List.mem_singleton.mp hframe
    split
    · exact ⟨hunscripted.scripts unit hamong object hobject, hamong, hgone⟩
    · exact ⟨hamong, hgone⟩
  · cases hframe

omit [Lawful β] [Reticent β] in
theorem World.letGo?_spent (hunscripted : world.Unscripted among) (thread : ℕ)
    {unit : Option ObjectId} (hamong : ∀ obj, unit = some obj → obj ∈ among) :
    ∀ frame ∈ (world.letGo? thread unit).2, frame.Spent (world.letGo? thread unit).1 among := by
  cases unit with
  | none => exact fun _ hframe => nomatch hframe
  | some unit => exact World.letGo_spent hunscripted thread (hamong unit rfl)

namespace Solo

/-- Destroyed objects give up their units, and so on. -/
theorem Clears.spends {above : List Frame} (hclears : Clears world above last)
    (hunscripted : world.Unscripted among) (habove : ∀ frame ∈ above, frame.Spent world among) :
    world.Spends last := by
  induction hclears with
  | nil world => exact .refl world
  | @step world after last above rest hstep _ ih =>
    cases above with
    | nil => cases hstep
    | cons top below =>
      have htop := habove top List.mem_cons_self
      have hbelow : ∀ frame ∈ below, frame.Spent world among :=
        fun frame hframe => habove frame (List.mem_cons_of_mem top hframe)
      cases top with
      | script owner ops =>
        obtain ⟨rfl, hspent⟩ := htop
        cases hstep
        refine ih hunscripted fun frame hframe => ?_
        rcases List.mem_cons.mp hframe with rfl | hframe
        · exact hspent
        · exact hbelow frame hframe
      | surrender owner =>
        obtain ⟨hamong, hgone⟩ : owner ∈ among ∧ world.Gone owner := htop
        cases htake : world.takeRef owner with
        | none =>
          simp only [Frame.stepAbove, Frame.step, htake, Option.some.injEq, Prod.mk.injEq] at hstep
          obtain ⟨rfl, rfl⟩ := hstep
          exact ih hunscripted hbelow
        | some taken =>
          obtain ⟨between, ref⟩ := taken
          simp only [Frame.stepAbove, Frame.step, htake, Option.some.injEq, Prod.mk.injEq] at hstep
          obtain ⟨rfl, rfl⟩ := hstep
          obtain ⟨object, refs, hobject, hrefs, hbetween⟩ := World.takeRef_eq_some htake
          have href : ref ∈ among :=
            hunscripted.refs owner hamong object hobject ref (hrefs ▸ List.mem_cons_self)
          have htaken : world.Spends between :=
            ⟨.takeRef hgone htake, by rw [hbetween]; exact ⟨_, world.log, rfl⟩⟩
          have hboth := htaken.trans (.letGo between 0 ref)
          refine hboth.trans (ih (hboth.sheds.unscripted hunscripted) fun frame hframe => ?_)
          rcases List.mem_append.mp hframe with hopened | hframe
          · exact World.letGo_spent (htaken.sheds.unscripted hunscripted) 0 href frame hopened
          · rcases List.mem_cons.mp hframe with rfl | hframe
            · exact ⟨hamong, hboth.sheds.gone hgone⟩
            · exact (hbelow frame hframe).mono fun _ => hboth.sheds.gone
      | _ => exact htop.elim

end Solo

end SharedCell
