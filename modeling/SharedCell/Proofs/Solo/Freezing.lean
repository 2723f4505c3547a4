import Mathlib
import SharedCell.Proofs.Solo.Equivalences
import SharedCell.Proofs.Twins.Logs

/-!
# Freezing a cell

To freeze a freezable cell is to take a unit on its content, to ask its guard about it, and to give
the unit back.  If there is no content or the guard accepts it, the cell is an atomic one from then
on; otherwise the cell is what it was.  Nothing else has changed in either case.
-/

namespace SharedCell

open Operation

variable {β : Type}

namespace World

variable {world : World β} {name : String} {cell : Cell}

/-- The world in which a cell, if it is there, is an atomic one. -/
def shareCell (world : World β) (name : String) : World β :=
  world.modifyCell name ({ · with kind := .atomic })

/-! ## Loans -/

variable [Resident β]

/-- A unit on an object that is in use is taken and given back. -/
theorem agrees_loan [Restoring β] {obj : ObjectId} {object : Object β}
    (hobject : world.object? obj = some object)
    (hunits : Counted.isPermanent object.body = true ∨ 1 ≤ Resident.count object.body) :
    world.Agrees ((world.acquire 0 obj).letGo 0 obj).1 ∧
      ((world.acquire 0 obj).letGo 0 obj).2 = [] := by
  have hrestored := Restoring.release_acquire object.body hunits
  have hacquired : (world.acquire 0 obj).object? obj =
      some { object with body := Counted.acquire object.body } := by
    rw [object?, acquire, record, Books.getElem?_modifyObject, if_pos rfl,
      show world.objects[obj]? = some object from hobject]
    rfl
  have hlast : (world.acquire 0 obj).isLast obj = false := by
    rw [isLast, hacquired]
    exact congrArg Prod.snd hrestored
  constructor
  · rw [letGo, release_eq, hlast]
    refine ⟨?_, rfl, rfl, rfl, rfl, rfl, rfl, rfl⟩
    apply Array.ext_getElem?
    intro other
    dsimp only
    rw [Books.getElem?_modifyObject, acquire, record, Books.getElem?_modifyObject]
    split
    · rename_i hsame
      subst hsame
      rw [show world.objects[obj]? = some object from hobject, Option.map_some, Option.map_some,
        hrestored, Bool.or_false]
    · rfl
  · rw [letGo, hlast]

end World

/-! ## The call -/

variable [Resident β] {world next : World β} {name : String} {cell : Cell} {reply : Reply}
  {obj : ObjectId}

namespace Solo

/-- A call that freezes a cell. -/
def freezing (name : String) (stage : Stage) : Call :=
  exchanging name [] .freeze none stage

theorem ends_leaving (world : World β) (name : String) (told : Reply) :
    Ends (world, [.tidy [.leaveCell name] told]) next reply ↔
      next = world.leaveCell name 0 ∧ reply = told := by
  have hnext : Solo.next (world, [.tidy [.leaveCell name] told]) =
      some (world.leaveCell name 0, [.tidy [] told]) := rfl
  rw [ends_step hnext, ends_reply]

/-- The cell is an atomic one when the call has come to its end. -/
theorem ends_frozen (world : World β) (name : String) :
    Ends (world, [.call (freezing name (.finished .done))]) next reply ↔
      next = (world.shareCell name).leaveCell name 0 ∧ reply = .ok := by
  have hnext : Solo.next (world, [.call (freezing name (.finished .done))]) =
      some (world.shareCell name, [.tidy [.leaveCell name] .ok]) :=
    @next_finished β _ world (freezing name (.finished .done)) [] .done rfl
  rw [ends_step hnext, ends_leaving]

/-- The cell is what it was when the guard has rejected its content. -/
theorem ends_unfrozen (world : World β) (name : String) (obj : ObjectId) :
    Ends (world, [.call (freezing name (.finished (.rejected obj)))]) next reply ↔
      next = world.leaveCell name 0 ∧ reply = .fault (.unshareable obj) := by
  have hnext : Solo.next (world, [.call (freezing name (.finished (.rejected obj)))]) =
      some (world, [.tidy [.leaveCell name] (.fault (.unshareable obj))]) :=
    @next_finished β _ world (freezing name (.finished (.rejected obj))) [] (.rejected obj) rfl
  rw [ends_step hnext, ends_leaving]

theorem next_vetting {call : Call} (below : List Frame) (hcell : world.cell? call.cell = some cell)
    (hstage : call.stage = .vetting obj) :
    Solo.next (world, .call call :: below) = some (asked world call.cell cell obj,
      .call { call with
        stage := if cell.guard.accepts (world.facts obj) then .releasing obj .done
          else .refusing obj } :: below) := by
  have hstep : call.stage.step cell.kind cell.guard call.action world.facts world.shape cell.slot =
      some (cell.slot,
        if cell.guard.accepts (world.facts obj) then .releasing obj .done else .refusing obj,
        some (.ask obj)) := by
    rw [hstage, Stage.step]
    split <;> rfl
  exact next_call hcell hstep

theorem next_refusing {call : Call} (below : List Frame) (hcell : world.cell? call.cell = some cell)
    (hstage : call.stage = .refusing obj) :
    Solo.next (world, .call call :: below) =
      some ((world.modifyCell call.cell ({ · with slot := cell.slot })).trace 0 (.rejected obj),
        .call { call with stage := .releasing obj (.rejected obj) } :: below) := by
  have hstep : call.stage.step cell.kind cell.guard call.action world.facts world.shape cell.slot =
      some (cell.slot, .releasing obj (.rejected obj), some (.reject obj)) := by
    rw [hstage, Stage.step]
  exact next_call hcell hstep

/-- The unit is given back, which destroys nothing. -/
theorem ends_releasing {outcome : Outcome} (hnames : (world.cells.map Prod.fst).Nodup)
    (hcell : world.cell? name = some cell) (hquiet : (world.letGo 0 obj).2 = []) :
    Ends (world, [.call (freezing name (.releasing obj outcome))]) next reply ↔
      Ends ((world.letGo 0 obj).1, [.call (freezing name (.finished outcome))]) next reply := by
  have hself : world.modifyCell name ({ · with slot := cell.slot }) = world :=
    World.modifyCell_self hnames hcell rfl
  have hnext := @next_releasing β _ world (freezing name (.releasing obj outcome)) cell obj []
    outcome hcell rfl
  rw [show (freezing name (.releasing obj outcome)).cell = name from rfl, hself, hquiet] at hnext
  exact ends_step hnext

/-- The guard is asked about the content of the cell while the call has a unit on it. -/
theorem ends_vetting [Restoring β] {object : Object β}
    (hnames : (world.cells.map Prod.fst).Nodup) (hcell : world.cell? name = some cell)
    (hobject : world.object? obj = some object)
    (hunits : Counted.isPermanent object.body = true ∨ 1 ≤ Resident.count object.body) :
    ∃ between, world.Agrees between ∧ ∀ next reply,
      Ends (world.acquire 0 obj, [.call (freezing name (.vetting obj))]) next reply ↔
        Ends (between, [.call (freezing name (.finished
          (if cell.guard.accepts (world.facts obj) then .done else .rejected obj)))]) next reply := by
  obtain ⟨hloan, hquiet⟩ := World.agrees_loan hobject hunits
  let borrowed := world.acquire 0 obj
  have hself : borrowed.modifyCell name ({ · with slot := cell.slot }) = borrowed :=
    World.modifyCell_self hnames hcell rfl
  have hfacts : borrowed.facts = world.facts :=
    World.facts_modifyObject fun object => Lawful.facts_acquire object.body
  let told := borrowed.ask 0 cell.guard obj
  have hasked : borrowed.Agrees told := .ask borrowed 0 cell.guard obj
  have htold : told.cell? name = some cell := (hasked.cell? name).trans hcell
  have htoldNames : (told.cells.map Prod.fst).Nodup := by rwa [hasked.cells]
  have hvets := @next_vetting β _ borrowed cell obj (freezing name (.vetting obj)) [] hcell rfl
  rw [hfacts, show asked borrowed (freezing name (.vetting obj)).cell cell obj = told from
    congrArg (World.ask · 0 cell.guard obj) hself] at hvets
  cases haccepts : cell.guard.accepts (world.facts obj) with
  | true =>
    rw [haccepts] at hvets
    refine ⟨(told.letGo 0 obj).1, hloan.trans (hasked.letGo 0 obj).1, fun next reply => ?_⟩
    rw [ends_step hvets]
    exact ends_releasing htoldNames htold ((hasked.letGo 0 obj).2.trans hquiet)
  | false =>
    rw [haccepts] at hvets
    have htoldSelf : told.modifyCell name ({ · with slot := cell.slot }) = told :=
      World.modifyCell_self htoldNames htold rfl
    let rejected := told.trace 0 (.rejected obj)
    have hrejected : borrowed.Agrees rejected := hasked.trans (.trace told 0 (.rejected obj))
    have hrefuses := @next_refusing β _ told cell obj (freezing name (.refusing obj)) [] htold rfl
    rw [show (told.modifyCell (freezing name (.refusing obj)).cell
      ({ · with slot := cell.slot })).trace 0 (.rejected obj) = rejected from
        congrArg (World.trace · 0 (.rejected obj)) htoldSelf] at hrefuses
    refine ⟨(rejected.letGo 0 obj).1, hloan.trans (hrejected.letGo 0 obj).1, fun next reply => ?_⟩
    have hnames : (rejected.cells.map Prod.fst).Nodup := by
      rw [hrejected.cells]
      exact hnames
    rw [ends_step hvets]
    exact (ends_step hrefuses).trans (ends_releasing hnames ((hrejected.cell? name).trans hcell)
      ((hrejected.letGo 0 obj).2.trans hquiet))

end Solo

namespace Operation

theorem start_freezeCell (hcell : world.cell? name = some cell) (hkind : cell.kind = .freezable)
    (hunused : cell.Unused) : (freezeCell (some name)).start 0 world =
      (world.useCell name 0 false, .call (Solo.freezing name (.calling (.locking (.read 0))))) := by
  obtain ⟨kind, guard, slot, users, out, lookers⟩ := cell
  obtain rfl : kind = .freezable := hkind
  obtain ⟨rfl, rfl, rfl⟩ := hunused
  simp only [start, begin?, startFreezeCell, Attempt.cell, Attempt.field, StateT.run_bind,
    pure_bind, StateT.run_get, bind_assoc, hcell]
  rfl

end Operation

omit [Resident β] in
/-- A cell that is used and left again is what it was. -/
theorem World.leaveCell_useCell (hnames : (world.cells.map Prod.fst).Nodup)
    (hcell : world.cell? name = some cell) (hunused : cell.Unused) (thread : ℕ) (looks : Bool) :
    (world.useCell name thread looks).leaveCell name thread = world := by
  rw [leaveCell, useCell, modifyCell_modifyCell]
  exact modifyCell_self hnames hcell (hunused.leave_use thread looks)

/-- Between operations nobody uses a cell. -/
theorem World.Sound.cell_resting (hsound : world.Sound 0) (hcell : world.cell? name = some cell) :
    cell.Unused ∧ cell.slot = cell.slot.register.slot := by
  have hcellSound := hsound.housed.sound name cell (mem_of_lookup hcell)
  refine ⟨hcellSound.unused, hcellSound.slot.plain ?_⟩
  intro phase hphase
  simp [Stakes.callsOn] at hphase

section Resting

variable (hsound : world.Sound 0) (hcell : world.cell? name = some cell)
  (hkind : cell.kind = .freezable)

include hsound hcell hkind

theorem World.leaveCell_shareCell :
    ((world.useCell name 0 false).shareCell name).leaveCell name 0 = world.shareCell name := by
  obtain ⟨hunused, -⟩ := hsound.cell_resting hcell
  rw [leaveCell, shareCell, useCell, modifyCell_modifyCell, modifyCell_modifyCell]
  apply modifyCell_congr hsound.housed.names hcell
  obtain ⟨kind, guard, slot, users, out, lookers⟩ := cell
  obtain rfl : kind = .freezable := hkind
  obtain ⟨rfl, rfl, rfl⟩ := hunused
  rfl

/-- The call has a unit on the content by the time that it knows what to do with it. -/
theorem Operation.performs_freezeCell_iff : (freezeCell (some name)).Performs world next reply ↔
    Solo.Ends ((world.useCell name 0 false).acquireAll 0 cell.slot.content.toList,
      [.call (Solo.freezing name (.received cell.kind { unit := cell.slot.content } .freeze))])
      next reply := by
  obtain ⟨hunused, hplain⟩ := hsound.cell_resting hcell
  let used := world.useCell name 0 false
  have hused : used.cell? name = some (cell.use 0 false) := World.cell?_modifyCell hcell
  have husedPlain : (cell.use 0 false).slot = (cell.use 0 false).slot.register.slot := by
    rwa [Cell.use_slot]
  let lent := used.acquireAll 0 cell.slot.content.toList
  have hlent : lent.cell? name = some (cell.use 0 false) := by
    rw [World.cell?, World.cells_acquireAll]
    exact hused
  have hlentNames : (lent.cells.map Prod.fst).Nodup := by
    rw [World.cells_acquireAll, show used.cells.map Prod.fst = world.cells.map Prod.fst from
      World.names_modifyCell world name (·.use 0 false)]
    exact hsound.housed.names
  have hleap : used.leap name (cell.use 0 false).slot.register (.read 0) = lent := by
    rw [World.leap, Errand.acquired, Errand.settle, Cell.use_slot]
    refine World.modifyCell_self hlentNames hlent ?_
    have hslot : (cell.slot.register.after none).slot = (cell.use 0 false).slot := by
      rw [Cell.use_slot]
      exact hplain.symm
    rw [hslot]
  have hreceived :
      (Solo.freezing name (.calling (.locking (.read 0)))).leap (cell.use 0 false) (.read 0) =
        Solo.freezing name (.received cell.kind { unit := cell.slot.content } .freeze) := by
    rw [Call.leap, Cell.use_slot, Cell.use_kind]
    rfl
  obtain ⟨count, -, hpath⟩ := @Solo.path_of_locking β _ used
    (Solo.freezing name (.calling (.locking (.read 0)))) [] (cell.use 0 false) (.read 0) hused
    husedPlain rfl trivial
  rw [performs_iff, start_freezeCell hcell hkind hunused, Solo.ends_path hpath, hreceived]
  exact iff_of_eq (congrArg (fun world => Solo.Ends (world, _) next reply) hleap)

end Resting

namespace Operation

/-- Freezing comes to an end.  It succeeds if there is no content or the guard accepts it, and then
the cell is an atomic one; otherwise it fails, and nothing has changed. -/
theorem performs_freezeCell [Restoring β] (hsound : world.Sound 0)
    (hcell : world.cell? name = some cell) (hkind : cell.kind = .freezable) :
    ((∀ obj, cell.slot.content = some obj → cell.guard.accepts (world.facts obj) = true) →
      ∃ next, (freezeCell (some name)).Performs world next .ok ∧
        (world.shareCell name).Agrees next) ∧
    ∀ obj, cell.slot.content = some obj → cell.guard.accepts (world.facts obj) = false →
      ∃ next, (freezeCell (some name)).Performs world next (.fault (.unshareable obj)) ∧
        world.Agrees next := by
  have hshared := World.leaveCell_shareCell hsound hcell hkind
  obtain ⟨hunused, -⟩ := hsound.cell_resting hcell
  have hleft := World.leaveCell_useCell hsound.housed.names hcell hunused 0 false
  have hends := fun next reply =>
    @performs_freezeCell_iff β _ world next name cell reply hsound hcell hkind
  cases hcontent : cell.slot.content with
  | none =>
    rw [hcontent] at hends
    refine ⟨fun _ => ⟨_, (hends _ _).mpr ((Solo.ends_frozen _ name).mpr ⟨rfl, rfl⟩), ?_⟩,
      fun obj hobj => by cases hobj⟩
    rw [show ((world.useCell name 0 false).acquireAll 0
      (none : Option ObjectId).toList).shareCell name =
        (world.useCell name 0 false).shareCell name from rfl, hshared]
    exact .refl _
  | some obj =>
    rw [hcontent] at hends
    have hmem : obj ∈ world.owned + (0 : Stakes).inHand :=
      Multiset.mem_add.mpr (.inl (World.owned_of_content (mem_of_lookup hcell) hcontent))
    obtain ⟨object, hobject, -, hunits⟩ := hsound.books.live hmem
    have hnames : ((world.useCell name 0 false).cells.map Prod.fst).Nodup := by
      rw [World.useCell, World.names_modifyCell]
      exact hsound.housed.names
    have hused : (world.useCell name 0 false).cell? name = some (cell.use 0 false) :=
      World.cell?_modifyCell hcell
    obtain ⟨between, hbetween, hvets⟩ :=
      Solo.ends_vetting hnames hused hobject hunits
    have hguard : (cell.use 0 false).guard.accepts ((world.useCell name 0 false).facts obj) =
        cell.guard.accepts (world.facts obj) := by
      rw [Cell.use_guard]
      rfl
    rw [hguard] at hvets
    constructor
    · intro haccepts
      rw [haccepts obj rfl] at hvets
      refine ⟨_, (hends _ _).mpr ((hvets _ _).mpr ((Solo.ends_frozen between name).mpr ⟨rfl, rfl⟩)),
        ?_⟩
      rw [← hshared]
      exact (hbetween.modifyCell name _).modifyCell name _
    · rintro _ ⟨⟩ hrefuses
      rw [hrefuses] at hvets
      refine ⟨_, (hends _ _).mpr ((hvets _ _).mpr ((Solo.ends_unfrozen between name obj).mpr
        ⟨rfl, rfl⟩)), ?_⟩
      have hagain := hbetween.modifyCell name (·.leave 0)
      rwa [show (world.useCell name 0 false).modifyCell name (·.leave 0) = world from hleft]
        at hagain

end Operation

end SharedCell
