import Mathlib
import SharedCell.Proofs.Solo.Tasks
import SharedCell.Proofs.Twins.Performances

/-!
# Operations on different cells

Two operations on different cells have the same outcome in either order, even though the cells can
hold the same objects and one operation can give back a unit on an object that the other one
acquires.  Neither finds out about the other one: what an operation comes to is settled by its cell,
its arguments and what objects are like.  That the counts are the same in the end is a matter of
ownership, and there is no moment at which an object is without a unit that is still to be acquired.
-/

namespace SharedCell

variable {β : Type}

/-! ## Tables -/

/-- Tables with the same entries are the same but for their order. -/
theorem perm_of_lookup {α : Type} {entries others : List (String × α)}
    (hnodup : (entries.map Prod.fst).Nodup) (hothers : (others.map Prod.fst).Nodup)
    (hsame : ∀ name, entries.lookup name = others.lookup name) : entries.Perm others := by
  refine (List.perm_ext_iff_of_nodup (.of_map _ hnodup) (.of_map _ hothers)).mpr ?_
  rintro ⟨name, entry⟩
  constructor
  · exact fun hmem => mem_of_lookup ((hsame name).symm.trans (lookup_of_mem hnodup hmem))
  · exact fun hmem => mem_of_lookup ((hsame name).trans (lookup_of_mem hothers hmem))

theorem give_of_ne {units : String → Option ObjectId} {given : Option (String × ObjectId)}
    {name : String} (hname : ∀ unit, given ≠ some (name, unit)) :
    give units given name = units name := by
  cases given with
  | none => rfl
  | some entry =>
    obtain ⟨other, unit⟩ := entry
    exact Function.update_of_ne (fun hsame => hname unit (by rw [hsame])) _ _

/-- Different handles receive units in either order. -/
theorem give_comm {units : String → Option ObjectId} {first second : Option (String × ObjectId)}
    (happart : ∀ name unit other, first = some (name, unit) → second ≠ some (name, other)) :
    give (give units first) second = give (give units second) first := by
  cases first with
  | none => rfl
  | some entry =>
    cases second with
    | none => rfl
    | some other =>
      obtain ⟨name, unit⟩ := entry
      obtain ⟨place, given⟩ := other
      refine Function.update_comm (fun hsame => ?_) _ _ _
      exact happart name unit given rfl (by rw [hsame])

namespace Result

variable {result first second : Result} {name other : String} {cells : String → Option Cell}

theorem cells_of_ne (hname : other ≠ name) (hcopied : ∀ made, result.copied ≠ some (other, made)) :
    result.cells name cells other = cells other := by
  cases hmade : result.copied with
  | none => simp only [Result.cells, hmade, Function.update_of_ne hname]
  | some entry =>
    have hcopy : other ≠ entry.1 := fun hsame => hcopied entry.2 (by rw [hmade, hsame])
    simp only [Result.cells, hmade, Function.update_of_ne hcopy, Function.update_of_ne hname]

/-- Different cells change in either order. -/
theorem cells_comm (hname : name ≠ other) (hfirst : ∀ made, first.copied ≠ some (other, made))
    (hsecond : ∀ made, second.copied ≠ some (name, made))
    (hcopies : ∀ copy made more, first.copied = some (copy, made) →
      second.copied ≠ some (copy, more)) :
    second.cells other (first.cells name cells) = first.cells name (second.cells other cells) := by
  cases hmade : first.copied with
  | none =>
    cases hmore : second.copied with
    | none => simp only [Result.cells, hmade, hmore, Function.update_comm hname]
    | some entry =>
      have hcopy : name ≠ entry.1 := fun hsame => hsecond entry.2 (by rw [hmore, hsame])
      simp only [Result.cells, hmade, hmore]
      rw [Function.update_comm hname, Function.update_comm hcopy]
  | some entry =>
    have hcopy : entry.1 ≠ other := fun hsame => hfirst entry.2 (by rw [hmade, ← hsame])
    cases hmore : second.copied with
    | none =>
      simp only [Result.cells, hmade, hmore]
      rw [Function.update_comm hcopy, Function.update_comm hname]
    | some added =>
      have hadded : name ≠ added.1 := fun hsame => hsecond added.2 (by rw [hmore, hsame])
      have hapart : entry.1 ≠ added.1 := fun hsame =>
        hcopies entry.1 entry.2 added.2 hmade (by rw [hmore, hsame])
      simp only [Result.cells, hmade, hmore]
      rw [Function.update_comm hcopy, Function.update_comm hname, Function.update_comm hapart,
        Function.update_comm hadded]

end Result

/-! ## Outcomes that do not depend on each other -/

namespace Operation

variable {units others : String → Option ObjectId} {vacant free : String → Bool}

theorem resolve_congr {argument : Arg}
    (hunits : ∀ name, argument = .named name → units name = others name) :
    resolve units argument = resolve others argument := by
  cases argument with
  | named name => rw [resolve, resolve, hunits name rfl]
  | _ => rfl

/-- What an operation is about is settled by the cell, by what its arguments stand for, and by
whether its copy has a free name. -/
theorem task_congr {op : Operation} {cell : Cell}
    (hunits : ∀ name, .named name ∈ op.arguments → units name = others name)
    (hvacant : ∀ copy, op.copy? = some copy → vacant copy = free copy) :
    op.task cell units vacant = op.task cell others free := by
  cases op with
  | onCell found verb new expected target =>
    have hnew : resolve units new = resolve others new :=
      resolve_congr fun name hname => hunits name (hname ▸ @new_mem found target verb new expected)
    have hwanted : resolveWanted cell.kind units verb expected =
        resolveWanted cell.kind others verb expected := by
      unfold resolveWanted
      cases hcomparing : comparing cell.kind verb with
      | none => rfl
      | some comparand =>
        have hmem := @expected_mem found target cell.kind verb new expected (by rw [hcomparing]; rfl)
        exact resolve_congr fun name hname => hunits name (hname ▸ hmem)
    simp only [task, verbTask, hnew, hwanted]
    split
    · rfl
    · rfl
    · split
      · rename_i copy _ _
        cases copy with
        | none => rfl
        | some copy => rw [copyTask, copyTask, hvacant copy rfl]
      · rfl
  | _ => rfl

variable [Resident β] {world next : World β}

theorem result_congr {op : Operation} {cell : Cell}
    (hunits : ∀ name, .named name ∈ op.arguments → next.unit? name = world.unit? name)
    (hvacant : ∀ copy, op.copy? = some copy → next.cell? copy = world.cell? copy)
    (hfacts : next.facts = world.facts) (hshape : next.shape = world.shape) :
    op.result next cell = op.result world cell := by
  have hfree : ∀ copy, op.copy? = some copy → next.vacant copy = world.vacant copy :=
    fun copy hcopy => by rw [World.vacant, World.vacant, hvacant copy hcopy]
  rw [result, result, task_congr hunits hfree, hfacts, hshape]

/-! ## Operations that leave each other alone -/

/-- An operation on a cell that is there.  What it takes is what handles stand for, and neither its
objects nor those that they own units on perform anything when they are destroyed. -/
structure Concerns (op : Operation) (world : World β) (name : String) (cell : Cell) : Prop where
  on : op.on? = some name
  found : world.cell? name = some cell
  byName : op.ByName
  unscripted : ∃ among, world.Unscripted among ∧ op.touched world cell ⊆ among

/-- An operation leaves alone what another one is about: its cell and its copy are not those of the
other one, and what it yields goes neither to the handle that receives what the other one yields
nor to an argument of the other one. -/
structure Spares (first second : Operation) : Prop where
  cells : ∀ name, first.on? = some name → second.on? ≠ some name
  copies : ∀ copy, first.copy? = some copy →
    second.on? ≠ some copy ∧ second.copy? ≠ some copy
  places : ∀ place, first.place? = some place →
    second.place? ≠ some place ∧ .named place ∉ second.arguments

omit [Resident β] in
theorem ordinary_of_on {op : Operation} {name : String} (hon : op.on? = some name) :
    op.ordinary = true := by
  cases op <;> first | rfl | cases hon

end Operation

open Operation

variable [Resident β] {world between here there : World β} {first second : Operation}
  {name other : String} {cell neighbour : Cell} {reply answer : Reply}

/-- Worlds that are the same but for what has happened in them. -/
structure World.Same (here there : World β) : Prop where
  cells : here.cell? = there.cell?
  units : here.unit? = there.unit?
  raws : here.raws = there.raws
  facts : here.facts = there.facts
  shape : here.shape = there.shape
  counts : ∀ obj, here.count obj = there.count obj
  gone : ∀ obj, here.Gone obj ↔ there.Gone obj

/-- In either order two operations have the same replies, and leave the same behind. -/
def World.Commutes (world : World β) (first second : Operation) : Prop :=
  ∃ reply answer here there, PerformsAll world [first, second] here [reply, answer] ∧
    PerformsAll world [second, first] there [answer, reply] ∧ here.Same there

/-- What a world has become after two operations. -/
structure World.Combines (world here : World β) (cells : String → Option Cell)
    (first second : Option (String × ObjectId)) : Prop where
  resting : here.Resting
  sheds : world.Sheds here
  raws : here.raws = world.raws
  cells : here.cell? = cells
  units : here.unit? = give (give world.unit? first) second
  kept : here.kept + ↑(first.bind fun entry => world.unit? entry.1).toList +
      ↑(second.bind fun entry => world.unit? entry.1).toList =
    world.kept + ↑(first.map Prod.snd).toList + ↑(second.map Prod.snd).toList

/-- What an operation on a cell is about is in one world what it is in another one. -/
structure Operation.Unaffected (op : Operation) (world between : World β) (name : String)
    (cell : Cell) : Prop where
  found : between.cell? name = some cell
  result : op.result between cell = op.result world cell
  touched : op.touched between cell ⊆ op.touched world cell
  receiver : ∀ place, op.place? = some place → between.unit? place = world.unit? place

/-- An operation that has been performed has changed nothing that the other one is about. -/
theorem World.Arrives.unaffected
    (harrives : world.Arrives between ((first.result world cell).cells name world.cell?)
      (first.result world cell).given)
    (hfirst : first.Concerns world name cell) (hsecond : second.Concerns world other neighbour)
    (hspares : first.Spares second) (hspared : second.Spares first) :
    second.Unaffected world between other neighbour := by
  have hcells (found : String) (hname : found ≠ name) (hcopy : first.copy? ≠ some found) :
      between.cell? found = world.cell? found := by
    rw [harrives.cells]
    exact Result.cells_of_ne hname fun made hmade => hcopy (copy_of_copied hmade)
  have hunits (handle : String) (hplace : first.place? ≠ some handle) :
      between.unit? handle = world.unit? handle := by
    rw [harrives.units]
    exact give_of_ne fun unit hgiven => hplace (place_of_given hgiven)
  have hargued (handle : String) (hargument : .named handle ∈ second.arguments) :
      between.unit? handle = world.unit? handle :=
    hunits handle fun hplace => (hspares.places handle hplace).2 hargument
  have hreceiver (place : String) (hplace : second.place? = some place) :
      between.unit? place = world.unit? place :=
    hunits place fun hsame => (hspares.places place hsame).1 hplace
  constructor
  case found =>
    rw [hcells other (fun hsame => hspares.cells name hfirst.on (hsame ▸ hsecond.on))
      fun hcopy => (hspares.copies other hcopy).1 hsecond.on, hsecond.found]
  case result =>
    refine result_congr hargued (fun copy hcopy => ?_) harrives.sheds.facts harrives.sheds.shape
    exact hcells copy (fun hsame => (hspared.copies copy hcopy).1 (hsame ▸ hfirst.on))
      fun hsame => (hspared.copies copy hcopy).2 hsame
  case touched =>
    rintro obj ((hcontent | ⟨handle, hargument, hobj⟩) | ⟨place, hplace, hobj⟩)
    · exact .inl (.inl hcontent)
    · exact .inl (.inr ⟨handle, hargument, hargued handle hargument ▸ hobj⟩)
    · exact .inr ⟨place, hplace, hreceiver place hplace ▸ hobj⟩
  case receiver => exact hreceiver

variable [Lawful β] [Reticent β]

/-- An operation comes to what it would have come to before the other one. -/
theorem Operation.Performs.combines (hearly : first.Performs world between reply)
    (hlate : second.Performs between here answer) (hresting : world.Resting)
    (hfirst : first.Concerns world name cell) (hsecond : second.Concerns world other neighbour)
    (hspares : first.Spares second) (hspared : second.Spares first) :
    reply = (first.result world cell).reply ∧ answer = (second.result world neighbour).reply ∧
      world.Combines here ((second.result world neighbour).cells other
          ((first.result world cell).cells name world.cell?))
        (first.result world cell).given (second.result world neighbour).given := by
  obtain ⟨among, hunscripted, htouched⟩ := hfirst.unscripted
  obtain ⟨others, hquiet, hreached⟩ := hsecond.unscripted
  obtain ⟨hreply, harrives⟩ := hearly.arrives hresting hunscripted htouched hfirst.found hfirst.on
    hfirst.byName
  have hbetween := hearly.resting hresting (ordinary_of_on hfirst.on)
  have hunaffected := harrives.unaffected hfirst hsecond hspares hspared
  obtain ⟨hanswer, hlast⟩ := hlate.arrives hbetween (harrives.sheds.unscripted hquiet)
    (hunaffected.touched.trans hreached) hunaffected.found hsecond.on hsecond.byName
  rw [hunaffected.result] at hanswer hlast
  have hreplaced : ((second.result world neighbour).given.bind fun entry =>
      between.unit? entry.1) =
        (second.result world neighbour).given.bind fun entry => world.unit? entry.1 := by
    cases hgiven : (second.result world neighbour).given with
    | none => rfl
    | some entry => exact hunaffected.receiver entry.1 (place_of_given hgiven)
  refine ⟨hreply, hanswer, hlate.resting hbetween (ordinary_of_on hsecond.on),
    harrives.sheds.trans hlast.sheds, hlast.raws.trans harrives.raws, ?_, ?_, ?_⟩
  · rw [hlast.cells, harrives.cells]
  · rw [hlast.units, harrives.units]
  · rw [add_right_comm, ← hreplaced, hlast.kept, add_right_comm, harrives.kept]

namespace World

omit [Resident β] [Lawful β] [Reticent β] in
theorem kept_eq (hnamed : ∀ holder ∈ world.holders, holder.name ≠ none) :
    world.kept = (world.holders.map Holder.unit : List ObjectId) := by
  rw [kept, List.filter_eq_self.mpr fun holder hholder =>
    Option.isSome_iff_ne_none.mpr (hnamed holder hholder)]

omit [Lawful β] [Reticent β] in
/-- What is owned outside the heap can be read off by name. -/
theorem Resting.roots_eq (hhere : here.Resting) (hthere : there.Resting)
    (hkept : here.kept = there.kept) (hraws : here.raws = there.raws)
    (hcells : here.cell? = there.cell?) : here.roots = there.roots := by
  have hperm : here.cells.Perm there.cells :=
    perm_of_lookup hhere.sound.housed.names hthere.sound.housed.names (congrFun hcells)
  rw [roots, roots, ← kept_eq hhere.named, ← kept_eq hthere.named, hkept, hraws,
    Multiset.coe_eq_coe.mpr hperm]

omit [Lawful β] [Reticent β] in
/-- The order of two operations does not matter if their cells and their handles are different. -/
theorem Combines.same {found later : String → Option Cell}
    {given received : Option (String × ObjectId)} (hhere : world.Combines here found given received)
    (hthere : world.Combines there later received given) (hcells : found = later)
    (happart : ∀ name unit other, given = some (name, unit) → received ≠ some (name, other)) :
    here.Same there := by
  have hkept : here.kept = there.kept := by
    refine add_right_cancel (add_right_cancel (hhere.kept.trans ?_))
    rw [add_right_comm, ← hthere.kept, add_right_comm]
  have hraws : here.raws = there.raws := hhere.raws.trans hthere.raws.symm
  have hsame : here.cell? = there.cell? := (hhere.cells.trans hcells).trans hthere.cells.symm
  have hroots := hhere.resting.roots_eq hthere.resting hkept hraws hsame
  have hsettled := hhere.resting.settled_eq hthere.resting hhere.sheds hthere.sheds
    fun obj => congrArg (Multiset.count obj) hroots
  exact {
    cells := hsame
    units := by rw [hhere.units, hthere.units, give_comm happart]
    raws := hraws
    facts := hhere.sheds.facts.trans hthere.sheds.facts.symm
    shape := hhere.sheds.shape.trans hthere.sheds.shape.symm
    counts := fun obj => (hsettled obj).1
    gone := fun obj => (hsettled obj).2 }

/-- Operations that leave each other alone can be performed in either order. -/
theorem Resting.commutes (hresting : world.Resting) (hfirst : first.Concerns world name cell)
    (hsecond : second.Concerns world other neighbour) (hspares : first.Spares second)
    (hspared : second.Spares first) : world.Commutes first second := by
  have hperforms {world : World β} {op : Operation} {name : String} (hresting : world.Resting)
      (hon : op.on? = some name) : ∃ next reply, op.Performs world next reply :=
    ⟨_, _, performs_perform hresting.sound (ordinary_of_on hon)⟩
  obtain ⟨between, reply, hearly⟩ := hperforms hresting hfirst.on
  obtain ⟨here, answer, hlate⟩ :=
    hperforms (hearly.resting hresting (ordinary_of_on hfirst.on)) hsecond.on
  obtain ⟨after, told, hbefore⟩ := hperforms hresting hsecond.on
  obtain ⟨there, said, hlast⟩ :=
    hperforms (hbefore.resting hresting (ordinary_of_on hsecond.on)) hfirst.on
  obtain ⟨rfl, rfl, hhere⟩ := hearly.combines hlate hresting hfirst hsecond hspares hspared
  obtain ⟨rfl, rfl, hthere⟩ := hbefore.combines hlast hresting hsecond hfirst hspared hspares
  refine ⟨_, _, here, there, .cons hearly (.cons hlate (.nil here)),
    .cons hbefore (.cons hlast (.nil there)), hhere.same hthere ?_ ?_⟩
  · have hname : name ≠ other := fun hsame =>
      hspares.cells name hfirst.on (hsame ▸ hsecond.on)
    refine Result.cells_comm hname (fun made hmade => ?_) (fun made hmade => ?_)
      fun copy made more hmade hmore => ?_
    · exact (hspares.copies other (copy_of_copied hmade)).1 hsecond.on
    · exact (hspared.copies name (copy_of_copied hmade)).1 hfirst.on
    · exact (hspares.copies copy (copy_of_copied hmade)).2 (copy_of_copied hmore)
  · exact fun place unit given hgiven hreceived =>
      (hspares.places place (place_of_given hgiven)).1 (place_of_given hreceived)

end World

namespace Crew

/-- However threads that perform ordinary operations have interleaved, two operations on different
cells that leave each other alone can be performed in either order once the threads have ended. -/
theorem run_commuting {programs : List (List Operation)}
    (hordinary : ∀ ops ∈ programs, Operation.ordinaryAll ops = true) (schedule : List ℕ)
    (hended : ((start programs : Crew β).run schedule).Ended)
    (hfirst : first.Concerns ((start programs : Crew β).run schedule).world name cell)
    (hsecond : second.Concerns ((start programs : Crew β).run schedule).world other neighbour)
    (hspares : first.Spares second) (hspared : second.Spares first) :
    ((start programs : Crew β).run schedule).world.Commutes first second := by
  have hreserved : (start programs : Crew β).world.Reserved := fun _ hnone => nomatch hnone
  have hresting := hended.resting ((start_accounted hordinary).run schedule)
    ((start_sound hordinary).reserved_run hreserved schedule)
  exact hresting.commutes hfirst hsecond hspares hspared

/-- Two cells hold an object and another one that owns a unit on it.  A third object, which
performs something when it is destroyed, is not at stake. -/
def heirs : List Operation :=
  [.alloc (some "a") (some (.int 1)) (some .frozen) [] [],
    .alloc (some "b") (some (.int 2)) (some .frozen) [some "a"] [],
    .newCell (some "c") .absent (.named "b") (some (some .atomic)) (some .value) none,
    .newCell (some "d") .absent (.named "a") (some (some .freezable)) (some .value) none,
    .drop (some "a"), .drop (some "b"),
    .alloc (some "z") (some (.int 3)) (some .mutable) [] [.dropCell (some "d")]]

/-- One cell is dropped, which destroys its object, and the object of the other one is read. -/
theorem run_commuting_heirs : (∀ ops ∈ [heirs], Operation.ordinaryAll ops = true) ∧
    ((start [heirs] : Crew Staged).run (List.replicate 17 0)).Ended ∧
    ((start [heirs] : Crew Staged).run (List.replicate 17 0)).world.Commutes
      (.dropCell (some "c")) (.onCell (some "d") .get .empty .empty (some "e")) := by
  have hordinary : ∀ ops ∈ [heirs], Operation.ordinaryAll ops = true := by decide
  have hended : ((start [heirs] : Crew Staged).run (List.replicate 17 0)).Ended := by
    decide +kernel
  have hunscripted : ((start [heirs] : Crew Staged).run (List.replicate 17 0)).world.Unscripted
      {obj | obj ∈ [0, 1]} := World.unscripted_of_all (by decide +kernel)
  have hvacant : ((start [heirs] : Crew Staged).run (List.replicate 17 0)).world.unit? "e" =
      none := by
    decide +kernel
  obtain ⟨cell, hcell, hcontent⟩ := Option.map_eq_some_iff.mp
    (show (((start [heirs] : Crew Staged).run (List.replicate 17 0)).world.cell? "c").map
      (·.slot.content) = some (some 1) by decide +kernel)
  obtain ⟨neighbour, hneighbour, hshared⟩ := Option.map_eq_some_iff.mp
    (show (((start [heirs] : Crew Staged).run (List.replicate 17 0)).world.cell? "d").map
      (·.slot.content) = some (some 0) by decide +kernel)
  refine ⟨hordinary, hended, run_commuting hordinary _ hended
    ⟨rfl, hcell, trivial, _, hunscripted, ?_⟩ ⟨rfl, hneighbour, trivial, _, hunscripted, ?_⟩
    ⟨?_, ?_, ?_⟩ ⟨?_, ?_, ?_⟩⟩
  · rintro obj ((hobj | ⟨_, hnone, -⟩) | ⟨_, hnone, -⟩)
    · obtain rfl := Option.some.inj (hcontent.symm.trans hobj)
      simp
    · cases hnone
    · cases hnone
  · rintro obj ((hobj | ⟨_, hnone, -⟩) | ⟨_, ⟨⟩, hunit⟩)
    · obtain rfl := Option.some.inj (hshared.symm.trans hobj)
      simp
    · simp [arguments] at hnone
    · cases hvacant.symm.trans hunit
  all_goals simp [on?, copy?, place?, arguments, Verb.yields]

end Crew

end SharedCell
