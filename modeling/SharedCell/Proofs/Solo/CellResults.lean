import Mathlib
import SharedCell.Proofs.Solo.Names
import SharedCell.Proofs.Solo.Comparisons

/-!
# What operations on cells come to

To whoever knows a world by the names of its cells and handles, an operation on a cell comes to
little: its reply, what becomes of the cell, the cell that a content is copied to, and the handle
that receives a unit.
-/

namespace SharedCell

open Operation Text

variable {β : Type}

/-! ## Cells by name -/

namespace World

variable {name : String}

theorem cell?_update (world : World β) (name : String) (change : Cell → Cell) :
    (world.modifyCell name change).cell? =
      Function.update world.cell? name ((world.cell? name).map change) := by
  funext other
  by_cases hsame : other = name
  · subst hsame
    rw [Function.update_self]
    cases hcell : world.cell? other with
    | some cell => exact cell?_modifyCell hcell
    | none =>
      refine List.lookup_eq_none_iff.mpr fun entry hentry => ?_
      obtain ⟨⟨earlier, cell⟩, hearlier, rfl⟩ := List.mem_map.mp hentry
      have hother := List.lookup_eq_none_iff.mp hcell _ hearlier
      dsimp only at hother ⊢
      split <;> exact hother
  · rw [Function.update_of_ne hsame, cell?_modifyCell_of_ne hsame]

theorem cell?_add (world : World β) (name : String) (cell : Cell) :
    (world.addCell name cell).cell? = Function.update world.cell? name (some cell) := by
  funext other
  by_cases hsame : other = name
  · rw [hsame, Function.update_self, cell?, addCell, List.lookup_cons_self]
  · rw [Function.update_of_ne hsame, cell?_addCell_of_ne hsame]

theorem cell?_erase (world : World β) (name : String) :
    (world.eraseCell name).cell? = Function.update world.cell? name none := by
  funext other
  by_cases hsame : other = name
  · rw [hsame, Function.update_self]
    exact lookup_filter_ne world.cells name
  · rw [Function.update_of_ne hsame, cell?_eraseCell_of_ne hsame]

/-! ## What handles leave alone -/

theorem store_rest (world : World β) (name : String) (unit : ObjectId) :
    (world.store name unit).1.objects = world.objects ∧
      (world.store name unit).1.raws = world.raws ∧
      (world.store name unit).1.cells = world.cells := by
  obtain ⟨holders, nextHolder, hstored⟩ := world.exists_stored name unit
  rw [hstored]
  exact ⟨rfl, rfl, rfl⟩

theorem endUse_rest (world : World β) (holder : ℕ) :
    (world.endUse holder).1.objects = world.objects ∧
      (world.endUse holder).1.raws = world.raws ∧
      (world.endUse holder).1.cells = world.cells := by
  obtain ⟨holders, hended⟩ := world.exists_endUsed holder
  rw [hended]
  exact ⟨rfl, rfl, rfl⟩

theorem cell?_congr {world next : World β} (hcells : next.cells = world.cells) :
    next.cell? = world.cell? := by
  funext name
  rw [cell?, cell?, hcells]

end World

/-! ## Arrivals -/

/-- A unit goes to a handle, if one is to receive it. -/
def give (units : String → Option ObjectId) : Option (String × ObjectId) →
    String → Option ObjectId
  | some (name, unit) => Function.update units name (some unit)
  | none => units

/-- The handle that receives a unit, if there are both. -/
def receipt (target : Option String) (unit : Option ObjectId) : Option (String × ObjectId) :=
  target.bind fun name => unit.map fun unit => (name, unit)

theorem receipt_eq_some {target : Option String} {unit : Option ObjectId} {name : String}
    {obj : ObjectId} :
    receipt target unit = some (name, obj) ↔ target = some name ∧ unit = some obj := by
  cases target <;> cases unit <;> simp [receipt]

variable [Resident β] {world between next : World β} {found later : String → Option Cell}
  {given : Option (String × ObjectId)} {reply : Reply} {among : Set ObjectId} {ids : List ℕ}

/-- What a world has become by name.  The unit that a handle receives takes the place of the one
that the handle has had. -/
structure World.Arrives (world next : World β) (cells : String → Option Cell)
    (given : Option (String × ObjectId)) : Prop where
  sheds : world.Sheds next
  raws : next.raws = world.raws
  distinct : next.Distinct
  inherits : world.Inherits next
  cells : next.cell? = cells
  units : next.unit? = give world.unit? given
  kept : next.kept + ↑(given.bind fun entry => world.unit? entry.1).toList =
    world.kept + ↑(given.map Prod.snd).toList

namespace World

theorem Retains.arrives (hretains : world.Retains next) (hobjects : next.objects = world.objects)
    (hraws : next.raws = world.raws) : world.Arrives next next.cell? none where
  sheds := .of_objects hobjects
  raws := hraws
  distinct := hretains.distinct
  inherits := hretains.inherits
  cells := rfl
  units := hretains.units
  kept := congrArg (· + 0) hretains.kept

theorem Spends.arrives (hspends : world.Spends next) (hdistinct : world.Distinct) :
    world.Arrives next world.cell? none := by
  obtain ⟨hsheds, _, _, rfl⟩ := hspends
  exact ⟨hsheds, rfl, ⟨hdistinct.ids, hdistinct.fresh⟩, .of_holders rfl rfl, rfl, rfl, rfl⟩

namespace Arrives

theorem refl (hdistinct : world.Distinct) : world.Arrives world world.cell? none :=
  (Spends.refl world).arrives hdistinct

/-- Handles receive something later. -/
theorem before (hfirst : world.Arrives between found none)
    (hsecond : between.Arrives next later given) : world.Arrives next later given where
  sheds := hfirst.sheds.trans hsecond.sheds
  raws := hsecond.raws.trans hfirst.raws
  distinct := hsecond.distinct
  inherits := hfirst.inherits.trans hsecond.inherits
  cells := hsecond.cells
  units := by
    rw [hsecond.units, hfirst.units]
    rfl
  kept := by
    have hunits : between.unit? = world.unit? := hfirst.units
    have hkept : between.kept = world.kept := by simpa using hfirst.kept
    have hlast := hsecond.kept
    rwa [hunits, hkept] at hlast

/-- Handles have received something earlier. -/
theorem after (hfirst : world.Arrives between found given)
    (hsecond : between.Arrives next later none) : world.Arrives next later given where
  sheds := hfirst.sheds.trans hsecond.sheds
  raws := hsecond.raws.trans hfirst.raws
  distinct := hsecond.distinct
  inherits := hfirst.inherits.trans hsecond.inherits
  cells := hsecond.cells
  units := hsecond.units.trans hfirst.units
  kept := by
    have hkept : next.kept = between.kept := by simpa using hsecond.kept
    rw [hkept]
    exact hfirst.kept

/-- Cells change. -/
theorem of_cells (hdistinct : world.Distinct) (cells : List (String × Cell)) :
    world.Arrives { world with cells } (({ world with cells } : World β).cell?) none :=
  Retains.arrives ⟨rfl, rfl, ⟨hdistinct.ids, hdistinct.fresh⟩, .of_holders rfl rfl⟩ rfl rfl

end Arrives

end World

/-! ## Chores -/

omit [Resident β] in
/-- The unit of a handle that is overwritten. -/
theorem World.store_snd {name : String} {unit old : ObjectId}
    (hold : (world.store name unit).2 = some old) : world.unit? name = some old := by
  unfold World.store at hold
  unfold World.unit?
  split at hold
  · cases hold
  · rename_i holder hfound
    split at hold
    · rw [hfound]
      exact hold
    · cases hold

omit [Resident β] in
/-- The unit of a handle that nothing uses any more. -/
theorem World.endUse_snd {id : ℕ} {unit : ObjectId} (hunit : (world.endUse id).2 = some unit) :
    ∃ holder ∈ world.holders, holder.id = id ∧ holder.unit = unit := by
  unfold World.endUse at hunit
  split at hunit
  · cases hunit
  · rename_i holder hfound
    split at hunit
    · exact ⟨holder, List.mem_of_find?_eq_some hfound, by simpa using List.find?_some hfound,
        Option.some.inj hunit⟩
    · cases hunit

/-- The units of some handles are among some objects. -/
def World.Covers (world : World β) (ids : List ℕ) (among : Set ObjectId) : Prop :=
  ∀ id ∈ ids, id < world.nextHolder ∧
    ∀ holder ∈ world.holders, holder.id = id → holder.unit ∈ among

omit [Resident β] in
theorem World.Inherits.covers (hinherits : world.Inherits next) (hcovers : world.Covers ids among) :
    next.Covers ids among := by
  intro id hid
  obtain ⟨hlt, hunits⟩ := hcovers id hid
  refine ⟨hlt.trans_le hinherits.le, ?_⟩
  rintro holder hholder rfl
  obtain ⟨earlier, hearlier, hsame, hunit⟩ := hinherits.units holder hholder hlt
  exact hunit ▸ hunits earlier hearlier hsame

/-- A unit that a chore gives back is among some objects. -/
def Chore.Frees (world : World β) (among : Set ObjectId) : Chore → Prop
  | .release unit => unit ∈ among
  | .store name _ => ∀ old, world.unit? name = some old → old ∈ among
  | .endUse id => world.Covers [id] among
  | _ => True

/-- What a chore does to the tables. -/
def Chore.enter (world : World β) : Chore → World β
  | .store name unit => (world.store name unit).1
  | .endUse holder => (world.endUse holder).1
  | .leaveCell cell => world.leaveCell cell 0
  | _ => world

omit [Resident β] in
theorem Chore.objects_enter (chore : Chore) (world : World β) :
    (chore.enter world).objects = world.objects := by
  cases chore with
  | store name unit => exact (world.store_rest name unit).1
  | endUse holder => exact (world.endUse_rest holder).1
  | _ => rfl

variable [Lawful β] [Reticent β]

/-- Apart from that, a chore only gives back a unit. -/
theorem Chore.perform_spends {chore : Chore} (hordinary : chore.ordinary = true)
    (hunscripted : world.Unscripted among) (hfrees : chore.Frees world among) :
    (chore.enter world).Spends (chore.perform 0 world).1 ∧
      ∀ frame ∈ (chore.perform 0 world).2, frame.Spent (chore.perform 0 world).1 among := by
  have hentered : (chore.enter world).Unscripted among :=
    (World.Sheds.of_objects (chore.objects_enter world)).unscripted hunscripted
  cases chore with
  | release unit => exact ⟨.letGo world 0 unit, World.letGo_spent hunscripted 0 hfrees⟩
  | store name unit =>
    exact ⟨.letGo? _ 0 _, World.letGo?_spent hentered 0 fun old hold =>
      hfrees old (World.store_snd hold)⟩
  | endUse holder =>
    refine ⟨.letGo? _ 0 _, World.letGo?_spent hentered 0 fun unit hunit => ?_⟩
    obtain ⟨found, hfound, hid, rfl⟩ := World.endUse_snd hunit
    exact (hfrees holder (List.mem_singleton_self holder)).2 found hfound hid
  | leaveCell cell => exact ⟨.refl _, fun _ hframe => nomatch hframe⟩
  | join => cases hordinary
  | resume => cases hordinary

namespace Solo

theorem Tidies.cons_spends {chore : Chore} {chores : List Chore}
    (htidies : Tidies world (chore :: chores) next) (hordinary : chore.ordinary = true)
    (hunscripted : world.Unscripted among) (hfrees : chore.Frees world among) :
    ∃ between, (chore.enter world).Spends between ∧ Tidies between chores next := by
  obtain ⟨between, hclears, hrest⟩ := htidies
  obtain ⟨hspends, hspent⟩ := Chore.perform_spends hordinary hunscripted hfrees
  have hentered := (World.Sheds.of_objects (chore.objects_enter world)).unscripted hunscripted
  have hperformed := hspends.sheds.unscripted hentered
  exact ⟨between, hspends.trans (hclears.spends hperformed hspent), hrest⟩

/-- A call gives up its handles and its cell. -/
theorem Tidies.arrives_ending {name : String}
    (htidies : Tidies world (ids.map .endUse ++ [.leaveCell name]) next)
    (hdistinct : world.Distinct) (hunscripted : world.Unscripted among)
    (hcovers : world.Covers ids among) :
    world.Arrives next (Function.update world.cell? name ((world.cell? name).map (·.leave 0)))
      none := by
  induction ids generalizing world with
  | nil =>
    obtain ⟨between, hspends, rfl⟩ := htidies.cons_spends rfl hunscripted trivial
    have hleft : world.Arrives (world.leaveCell name 0) (world.leaveCell name 0).cell? none :=
      .of_cells hdistinct _
    rw [← show (world.leaveCell name 0).cell? = _ from world.cell?_update name (·.leave 0)]
    exact hleft.before (hspends.arrives hleft.distinct)
  | cons id ids ih =>
    have hfirst : world.Covers [id] among := fun other hother =>
      hcovers other (List.mem_singleton.mp hother ▸ List.mem_cons_self)
    obtain ⟨between, hspends, hrest⟩ := htidies.cons_spends rfl hunscripted hfirst
    obtain ⟨hobjects, hraws, hcells⟩ := world.endUse_rest id
    have hended := World.retains_endUse hdistinct id
    have hbetween := (hended.arrives hobjects hraws).before (hspends.arrives hended.distinct)
    have hothers : world.Covers ids among := fun other hother =>
      hcovers other (List.mem_cons_of_mem id hother)
    have hlast := ih hrest hbetween.distinct (hbetween.sheds.unscripted hunscripted)
      (hbetween.inherits.covers hothers)
    rw [hbetween.cells, show (Chore.enter world (.endUse id)).cell? = world.cell? from
      World.cell?_congr hcells] at hlast
    exact hbetween.before hlast

/-- A unit goes where it is to go. -/
theorem Tidies.arrives_delivery {target : Option String} {unit : Option ObjectId}
    {chores : List Chore} (htidies : Tidies world (delivery target unit ++ chores) next)
    (hdistinct : world.Distinct) (hunscripted : world.Unscripted among)
    (hunit : ∀ obj, unit = some obj → obj ∈ among)
    (hplace : ∀ entry, receipt target unit = some entry →
      ∀ old, world.unit? entry.1 = some old → old ∈ among) :
    ∃ between, world.Arrives between world.cell? (receipt target unit) ∧
      Tidies between chores next := by
  match unit, target with
  | none, target =>
    have hnone : receipt target none = none := by cases target <;> rfl
    exact ⟨world, hnone ▸ .refl hdistinct, htidies⟩
  | some unit, none =>
    obtain ⟨between, hspends, hrest⟩ :=
      Tidies.cons_spends htidies rfl hunscripted (hunit unit rfl)
    exact ⟨between, hspends.arrives hdistinct, hrest⟩
  | some unit, some name =>
    obtain ⟨between, hspends, hrest⟩ :=
      Tidies.cons_spends htidies rfl hunscripted (hplace (name, unit) rfl)
    obtain ⟨hobjects, hraws, hcells⟩ := world.store_rest name unit
    obtain ⟨hunits, hkept, hstored⟩ := World.store_units hdistinct name unit
    have harrives : world.Arrives (world.store name unit).1 world.cell?
        (receipt (some name) (some unit)) :=
      { sheds := .of_objects hobjects
        raws := hraws
        distinct := hstored
        inherits := .store world name unit
        cells := World.cell?_congr hcells
        units := hunits
        kept := hkept }
    have hlast := hspends.arrives hstored
    rw [show (Chore.enter world (.store name unit)).cell? = world.cell? from harrives.cells] at hlast
    exact ⟨between, harrives.after hlast, hrest⟩

end Solo

/-! ## Calls -/

/-- The unit that goes to the caller. -/
def Outcome.unit? : Outcome → Option ObjectId
  | .unit owned | .snapshot owned _ | .swapped _ owned => owned
  | _ => none

/-- What an operation on a cell comes to. -/
structure Result where
  reply : Reply
  /-- The cell afterwards, unless it was consumed. -/
  cell : Option Cell
  /-- The cell that the content is copied to, with its name. -/
  copied : Option (String × Cell) := none
  /-- The unit that a handle receives. -/
  given : Option (String × ObjectId) := none

/-- The cells after an operation on the cell of a name. -/
def Result.cells (result : Result) (name : String) (cells : String → Option Cell) :
    String → Option Cell :=
  match result.copied with
  | some (copy, made) => Function.update (Function.update cells name result.cell) copy (some made)
  | none => Function.update cells name result.cell

theorem Result.cells_update (result : Result) (name : String) (cells : String → Option Cell)
    (cell : Option Cell) :
    result.cells name (Function.update cells name cell) = result.cells name cells := by
  unfold Result.cells
  split <;> rw [Function.update_idem]

/-- What a call comes to that has its outcome and leaves a cell in this state. -/
def Action.result (action : Action) (target copy : Option String) (left : Cell)
    (outcome : Outcome) : Result :=
  match action, outcome, copy with
  | .copy, .unit content, some name =>
      { reply := .ok
        cell := left
        copied := some (name, { kind := .atomic, guard := left.guard, slot := { content } }) }
  | .freeze, .done, _ => { reply := .ok, cell := some { left with kind := .atomic } }
  | _, _, _ => { reply := outcome.reply, cell := left, given := receipt target outcome.unit? }

theorem Action.result_of_ne {action : Action} {target copy : Option String} {left : Cell}
    {outcome : Outcome}
    (hcopied : ∀ content name, action = .copy → outcome = .unit content → copy ≠ some name)
    (hfrozen : action = .freeze → outcome ≠ .done) :
    action.result target copy left outcome =
      { reply := outcome.reply, cell := left, given := receipt target outcome.unit? } := by
  unfold Action.result
  split
  · exact absurd rfl (hcopied _ _ rfl rfl)
  · exact absurd rfl (hfrozen rfl)
  · rfl

namespace Solo

variable {call : Call} {left : Cell} {outcome : Outcome}

omit [Lawful β] [Reticent β] in
theorem ends_settled (hstage : call.stage = .finished outcome) :
    Ends (world, [.call call]) next reply ↔
      Tidies (call.settle world outcome).1 ((call.settle world outcome).2.1 ++
        (call.holders.map .endUse ++ [.leaveCell call.cell])) next ∧
        reply = (call.settle world outcome).2.2 := by
  rw [ends_step (next_finished [] hstage), Call.conclude, ← List.append_assoc]
  exact ends_tidy

section Finished

variable (hcell : world.cell? call.cell = some (left.use 0 call.action.looks))
  (hunused : left.Unused)
  (hdistinct : world.Distinct) (hunscripted : world.Unscripted among)
  (hcovers : world.Covers call.holders among)

include hcell hunused hdistinct hunscripted hcovers

/-- A copied content is in a cell of its own. -/
theorem arrives_copy {content : Option ObjectId} {copy : String} (haction : call.action = .copy)
    (hname : call.copy = some copy) (hfree : world.cell? copy = none)
    (hstage : call.stage = .finished (.unit content))
    (hends : Ends (world, [.call call]) next reply) :
    reply = .ok ∧ world.Arrives next (Function.update
      (Function.update world.cell? call.cell (some left)) copy
        (some { kind := .atomic, guard := left.guard, slot := { content } })) none := by
  obtain ⟨htidies, hreply⟩ := (ends_settled hstage).mp hends
  have hne : call.cell ≠ copy := by
    rintro hsame
    rw [hsame, hfree] at hcell
    cases hcell
  let made : Cell := { kind := .atomic, guard := left.guard, slot := { content } }
  have hsettle : call.settle world (.unit content) = (world.addCell copy made, [], .ok) := by
    simp only [Call.settle, haction, hname, hfree, hcell, Option.map_some, Option.getD_some,
      Cell.use_guard, made]
  rw [hsettle] at htidies hreply
  have hadded := World.Arrives.of_cells hdistinct (world.addCell copy made).cells
  have hlast := Tidies.arrives_ending htidies hadded.distinct
    (hadded.sheds.unscripted hunscripted) (hadded.inherits.covers hcovers)
  have harrives := hadded.before hlast
  rw [World.cell?_add, Function.update_of_ne hne, hcell, Option.map_some, hunused.leave_use,
    Function.update_comm hne.symm] at harrives
  exact ⟨hreply, harrives⟩

/-- A cell that was frozen is atomic. -/
theorem arrives_freeze (haction : call.action = .freeze) (hstage : call.stage = .finished .done)
    (hends : Ends (world, [.call call]) next reply) :
    reply = .ok ∧ world.Arrives next
      (Function.update world.cell? call.cell (some { left with kind := .atomic })) none := by
  obtain ⟨htidies, hreply⟩ := (ends_settled hstage).mp hends
  have hsettle : call.settle world .done =
      (world.modifyCell call.cell ({ · with kind := .atomic }), [], .ok) := by
    simp only [Call.settle, haction]
  have hatomic : ({ left.use 0 call.action.looks with kind := .atomic } : Cell).leave 0 =
      { left with kind := .atomic } := by
    rw [haction]
    obtain ⟨kind, guard, slot, users, out, lookers⟩ := left
    obtain ⟨rfl, rfl, rfl⟩ := hunused
    cases kind <;> rfl
  rw [hsettle] at htidies hreply
  have hshared := World.Arrives.of_cells hdistinct
    (world.modifyCell call.cell ({ · with kind := .atomic })).cells
  have hlast := Tidies.arrives_ending htidies hshared.distinct
    (hshared.sheds.unscripted hunscripted) (hshared.inherits.covers hcovers)
  have harrives := hshared.before hlast
  rw [World.cell?_update, hcell, Function.update_self, Option.map_some, Option.map_some, hatomic,
    Function.update_idem] at harrives
  exact ⟨hreply, harrives⟩

/-- Otherwise the unit of the outcome goes where it is to go. -/
theorem arrives_yield
    (hcopied : ∀ content copy, call.action = .copy → outcome = .unit content →
      call.copy ≠ some copy)
    (hfrozen : call.action = .freeze → outcome ≠ .done)
    (hunit : ∀ obj, outcome.unit? = some obj → obj ∈ among)
    (hplace : ∀ entry, receipt call.target outcome.unit? = some entry →
      ∀ old, world.unit? entry.1 = some old → old ∈ among)
    (hstage : call.stage = .finished outcome) (hends : Ends (world, [.call call]) next reply) :
    reply = outcome.reply ∧ world.Arrives next
      (Function.update world.cell? call.cell (some left)) (receipt call.target outcome.unit?) := by
  obtain ⟨htidies, hreply⟩ := (ends_settled hstage).mp hends
  have hsettle : call.settle world outcome =
      (world, delivery call.target outcome.unit?, outcome.reply) := by
    have hunits : outcome.units = outcome.unit?.toList := by cases outcome <;> rfl
    rw [← delivery_units, ← hunits]
    unfold Call.settle
    split
    · rename_i haction hname
      exact absurd hname (hcopied _ _ haction rfl)
    · rename_i haction
      exact absurd rfl (hfrozen haction)
    · rfl
  rw [hsettle] at htidies hreply
  obtain ⟨between, hgiven, hrest⟩ :=
    Tidies.arrives_delivery htidies hdistinct hunscripted hunit hplace
  have hlast := hrest.arrives_ending hgiven.distinct (hgiven.sheds.unscripted hunscripted)
    (hgiven.inherits.covers hcovers)
  have harrives := hgiven.after hlast
  rw [hgiven.cells, hcell, Option.map_some, hunused.leave_use] at harrives
  exact ⟨hreply, harrives⟩

/-- What a call leaves behind that has its outcome. -/
theorem arrives_finished (hcopy : ∀ name, call.copy = some name → world.cell? name = none)
    (hunit : ∀ obj, outcome.unit? = some obj → obj ∈ among)
    (hplace : ∀ entry, (call.action.result call.target call.copy left outcome).given = some entry →
      ∀ old, world.unit? entry.1 = some old → old ∈ among)
    (hstage : call.stage = .finished outcome) (hends : Ends (world, [.call call]) next reply) :
    let result := call.action.result call.target call.copy left outcome
    reply = result.reply ∧ world.Arrives next (result.cells call.cell world.cell?) result.given := by
  intro result
  by_cases hcopied : ∃ content copy, call.action = .copy ∧ outcome = .unit content ∧
      call.copy = some copy
  · obtain ⟨content, copy, haction, rfl, hname⟩ := hcopied
    rw [show result = _ by simp only [result, Action.result, haction, hname]; rfl]
    exact arrives_copy hcell hunused hdistinct hunscripted hcovers haction hname (hcopy copy hname)
      hstage hends
  by_cases hfrozen : call.action = .freeze ∧ outcome = .done
  · obtain ⟨haction, rfl⟩ := hfrozen
    rw [show result = _ by simp only [result, Action.result, haction]; rfl]
    exact arrives_freeze hcell hunused hdistinct hunscripted hcovers haction hstage hends
  · have hcopied : ∀ content copy, call.action = .copy → outcome = .unit content →
        call.copy ≠ some copy := fun content copy haction houtcome hname =>
      hcopied ⟨content, copy, haction, houtcome, hname⟩
    have hfrozen : call.action = .freeze → outcome ≠ .done := fun haction houtcome =>
      hfrozen ⟨haction, houtcome⟩
    have hresult := @Action.result_of_ne call.action call.target call.copy left outcome hcopied
      hfrozen
    rw [hresult] at hplace
    rw [show result = _ from hresult]
    exact arrives_yield hcell hunused hdistinct hunscripted hcovers hcopied hfrozen hunit hplace hstage
      hends

end Finished

end Solo

omit [Lawful β] [Reticent β] in
theorem World.Sound.distinct {stakes : Stakes} (hsound : world.Sound stakes) : world.Distinct :=
  ⟨hsound.held.ids, hsound.held.fresh⟩

omit [Lawful β] [Reticent β] in
/-- What is in use has become what it was to whoever knows it by name. -/
theorem World.arrives_engage (hdistinct : world.Distinct) (name : String) (holders : List ℕ)
    (looks : Bool) : world.Arrives (world.engage name holders looks)
      (Function.update world.cell? name ((world.cell? name).map (·.use 0 looks))) none := by
  have hlent := (World.retains_lend hdistinct holders).arrives rfl rfl
  have hused := World.Arrives.of_cells hlent.distinct
    ((world.lend holders).useCell name 0 looks).cells
  have hboth := hlent.before hused
  rwa [show ({ world.lend holders with
    cells := ((world.lend holders).useCell name 0 looks).cells } : World β).cell? = _ from
      (world.lend holders).cell?_update name (·.use 0 looks)] at hboth

namespace Stage

variable {kind : CellKind} {guard : Guard} {action : Action} {facts : ObjectId → Facts}
  {shape : Layout → ObjectId → Shape} {stage : Stage} {obj : ObjectId}

/-- What a call gives back or yields in the end is what it owns. -/
theorem mem_units_remainder :
    ((stage.remainder kind guard action facts shape).spare = some obj → obj ∈ stage.units) ∧
      ((stage.remainder kind guard action facts shape).outcome.unit? = some obj →
        obj ∈ stage.units) := by
  have houtcome (outcome : Outcome) (hunit : outcome.unit? = some obj) : obj ∈ outcome.units := by
    cases outcome <;> exact Option.mem_toList.mpr hunit
  have hspared {unit : ObjectId} (hspare : some unit = some obj) : obj ∈ [unit] :=
    List.mem_singleton.mpr (Option.some.inj hspare).symm
  have hnothing {units : List ObjectId} (hnone : none = some obj) : obj ∈ units :=
    absurd hnone.symm (Option.some_ne_none obj)
  cases stage with
  | writing unit version => cases action <;> exact ⟨hspared, hnothing⟩
  | vetting unit =>
    simp only [remainder]
    split <;> exact ⟨hspared, hnothing⟩
  | refusing unit => exact ⟨hspared, hnothing⟩
  | releasing unit outcome =>
    exact ⟨fun hspare => List.mem_cons.mpr (.inl (Option.some.inj hspare).symm),
      fun hunit => List.mem_cons_of_mem unit (houtcome outcome hunit)⟩
  | finished outcome => exact ⟨hnothing, houtcome outcome⟩
  | _ => exact ⟨hnothing, hnothing⟩

end Stage

/-- What the slot yields is its content. -/
theorem Errand.content_of_unit {errand : Errand} {register : Register} {obj : ObjectId}
    (hunit : (errand.settle register).1.unit = some obj) : register.content = some obj := by
  cases errand with
  | exchange expected new observe =>
    rw [settle] at hunit
    split at hunit
    · exact hunit
    · split at hunit
      · exact hunit
      · cases hunit
  | version => cases hunit
  | _ => exact hunit

/-- So is what a call gives back, and what it yields to its caller. -/
theorem Action.content_of_conduct {action : Action} {kind : CellKind} {guard : Guard}
    {facts : ObjectId → Facts} {shape : Layout → ObjectId → Shape} {register : Register}
    {obj : ObjectId} :
    ((action.conduct kind guard facts shape register).spare = some obj →
        register.content = some obj) ∧
      ((action.conduct kind guard facts shape register).outcome.unit? = some obj →
        register.content = some obj) := by
  have hreceived (hmem : obj ∈ (Stage.received kind ((action.errand kind).settle register).1
      action).units) : register.content = some obj := by
    rw [Stage.units_received] at hmem
    exact Errand.content_of_unit (Option.mem_toList.mp hmem)
  have hhandling :
      ((action.handling kind guard facts shape register).spare = some obj →
          register.content = some obj) ∧
        ((action.handling kind guard facts shape register).outcome.unit? = some obj →
          register.content = some obj) :=
    ⟨fun hspare => hreceived (Stage.mem_units_remainder.1 hspare),
      fun hunit => hreceived (Stage.mem_units_remainder.2 hunit)⟩
  unfold conduct
  dsimp only
  split
  · split
    · exact hhandling
    · exact ⟨fun hspare => (nomatch hspare), fun hunit => (nomatch hunit)⟩
  · exact hhandling

section Calls

variable {op : Operation} {cell : Cell} {call : Call}

/-- The cell with what a call on it has stored. -/
def Action.written (action : Action) (cell : Cell) (facts : ObjectId → Facts)
    (shape : Layout → ObjectId → Shape) : Cell :=
  let conduct := action.conduct cell.kind cell.guard facts shape cell.slot.register
  { cell with slot := (cell.slot.register.after conduct.stored).slot }

/-- Up to the outcome, units are acquired and given back while the cell is in use. -/
theorem Operation.Calls.arrives_outcome (hcalls : op.Calls world cell call)
    (hsound : world.Sound 0) (hunscripted : world.Unscripted among)
    (hcontent : ∀ obj ∈ cell.slot.content, obj ∈ among) (hperforms : op.Performs world next reply) :
    let conduct := call.action.conduct cell.kind cell.guard world.facts world.shape
      cell.slot.register
    ∃ between, world.Arrives between (Function.update world.cell? call.cell
        (some ((call.action.written cell world.facts world.shape).use 0 call.action.looks)))
        none ∧
      Solo.Ends (between, [.call { call with stage := .finished conduct.outcome }]) next reply := by
  intro conduct
  let written := world.modifyCell call.cell
    ({ · with slot := (cell.slot.register.after conduct.stored).slot })
  let start := written.engage call.cell call.holders call.action.looks
  obtain ⟨-, hplain⟩ := hsound.cell_resting hcalls.found
  obtain ⟨effects, hdoes⟩ := hperforms.does
  obtain ⟨-, between, hclears, hends⟩ := (hcalls.does_iff hsound hplain).mp hdoes
  have hwritten : world.Arrives written (Function.update world.cell? call.cell
      (some (call.action.written cell world.facts world.shape))) none := by
    have hchanged := World.Arrives.of_cells hsound.distinct written.cells
    rwa [show ({ world with cells := written.cells } : World β).cell? = _ from
      world.cell?_update call.cell
        ({ · with slot := (cell.slot.register.after conduct.stored).slot }), hcalls.found] at hchanged
  have hengaged := hwritten.before
    (World.arrives_engage hwritten.distinct call.cell call.holders call.action.looks)
  rw [hwritten.cells, Function.update_self, Option.map_some, Function.update_idem] at hengaged
  have hstart : start.Unscripted among := hengaged.sheds.unscripted hunscripted
  have hundergone := World.Spends.undergo start cell.guard conduct.quiet
  have hquiet := hundergone.trans (.letGo? _ 0 conduct.spare)
  have hspends : start.Spends between :=
    hquiet.trans (hclears.spends (hquiet.sheds.unscripted hstart)
      (World.letGo?_spent (hundergone.sheds.unscripted hstart) 0 fun obj hspare =>
        hcontent obj (Action.content_of_conduct.1 hspare)))
  have hbetween := hengaged.before (hspends.arrives hengaged.distinct)
  rw [hengaged.cells] at hbetween
  exact ⟨between, hbetween, hends⟩

/-- What an operation comes to that makes a call. -/
theorem Operation.Calls.arrives (hcalls : op.Calls world cell call) (hsound : world.Sound 0)
    (hunscripted : world.Unscripted among) (hcontent : ∀ obj ∈ cell.slot.content, obj ∈ among)
    (hcovers : world.Covers call.holders among)
    (hcopy : ∀ name, call.copy = some name → world.cell? name = none)
    (hplace : ∀ entry,
      let conduct := call.action.conduct cell.kind cell.guard world.facts world.shape
        cell.slot.register
      (call.action.result call.target call.copy (call.action.written cell world.facts world.shape)
        conduct.outcome).given = some entry →
      ∀ old, world.unit? entry.1 = some old → old ∈ among)
    (hperforms : op.Performs world next reply) :
    let conduct := call.action.conduct cell.kind cell.guard world.facts world.shape
      cell.slot.register
    let result := call.action.result call.target call.copy
      (call.action.written cell world.facts world.shape) conduct.outcome
    reply = result.reply ∧ world.Arrives next (result.cells call.cell world.cell?) result.given := by
  intro conduct result
  obtain ⟨between, hbetween, hends⟩ :=
    hcalls.arrives_outcome hsound hunscripted hcontent hperforms
  have hcell : between.cell? call.cell =
      some ((call.action.written cell world.facts world.shape).use 0 call.action.looks) := by
    rw [hbetween.cells, Function.update_self]
  have hunits : between.unit? = world.unit? := hbetween.units
  have hfree : ∀ name, call.copy = some name → between.cell? name = none := by
    intro name hname
    have hne : name ≠ call.cell := by
      rintro rfl
      cases (hcopy _ hname).symm.trans hcalls.found
    rw [hbetween.cells, Function.update_of_ne hne, hcopy name hname]
  obtain ⟨hreply, hlast⟩ := @Solo.arrives_finished β _ between next reply among _ _
    { call with stage := .finished conduct.outcome }
    (call.action.written cell world.facts world.shape) conduct.outcome hcell
    (hcalls.unused.write _) hbetween.distinct
    (hbetween.sheds.unscripted hunscripted) (hbetween.inherits.covers hcovers) hfree
    (fun obj hunit => hcontent obj (Action.content_of_conduct.2 hunit))
    (fun entry hgiven old hold => hplace entry hgiven old (hunits ▸ hold)) rfl hends
  refine ⟨hreply, ?_⟩
  rw [← Result.cells_update result call.cell world.cell?
    (some ((call.action.written cell world.facts world.shape).use 0 call.action.looks)),
    ← hbetween.cells]
  exact hbetween.before hlast

end Calls

end SharedCell
