import Mathlib
import SharedCell.Proofs.Twins.FreezableCells

/-!
# Cells that are frozen from the start

An atomic cell that is made with the value and the guard of a freezable one goes in step with it in
all that both of them offer, as long as the guard accepts what is offered.
-/

namespace SharedCell

open Operation

variable {β : Type} [Resident β] {name : String} {guard : Guard} {frozen : Bool} {value : Arg}

namespace World

omit [Resident β] in
theorem modifyCell_addCell {world : World β} {cell : Cell} {change : Cell → Cell}
    (habsent : world.cell? name = none) :
    (world.addCell name cell).modifyCell name change = world.addCell name (change cell) := by
  have hothers : ∀ entry ∈ world.cells, entry.1 ≠ name := by
    intro entry hmem heq
    have hne := List.lookup_eq_none_iff.mp habsent entry hmem
    simp [heq] at hne
  have hrest : (world.modifyCell name change).cells = world.cells := by
    conv_rhs => rw [← List.map_id world.cells]
    exact List.map_congr_left fun entry hmem => if_neg (hothers entry hmem)
  have hcells : ((world.addCell name cell).modifyCell name change).cells =
      (name, change cell) :: world.cells :=
    congr_arg₂ List.cons (if_pos rfl) hrest
  exact congrArg (fun cells => { world with cells }) hcells

theorem Agrees.acquireAll {left right : World β} (hagrees : left.Agrees right) (thread : ℕ)
    (units : List ObjectId) :
    (left.acquireAll thread units).Agrees (right.acquireAll thread units) := by
  induction units generalizing left right with
  | nil => exact hagrees
  | cons unit units ih => exact ih (hagrees.acquire thread unit)

/-- Acquiring units gives no object another script. -/
theorem script_acquireAll {world : World β} {thread : ℕ} {units : List ObjectId} {obj : ObjectId}
    {object : Object β} (hobject : (world.acquireAll thread units).object? obj = some object) :
    ∃ earlier, world.object? obj = some earlier ∧ object.script = earlier.script := by
  induction units generalizing world with
  | nil => exact ⟨object, hobject, rfl⟩
  | cons unit units ih =>
    obtain ⟨between, hbetween, hscript⟩ := ih hobject
    have hacquired : (world.modifyObject unit fun object =>
        { object with body := Counted.acquire object.body }).objects[obj]? = some between := hbetween
    rw [Books.getElem?_modifyObject] at hacquired
    cases hfound : world.objects[obj]? with
    | none =>
      rw [hfound] at hacquired
      split at hacquired <;> cases hacquired
    | some earlier =>
      rw [hfound] at hacquired
      refine ⟨earlier, hfound, hscript.trans ?_⟩
      split at hacquired <;> cases hacquired <;> rfl

end World

namespace Operation

/-! ## Before the cell is frozen -/

/-- What can be done to a cell that is not frozen, texts apart, and all that does not concern it. -/
def Early (name : String) (op : Operation) : Prop :=
  op.suits true (some name) = true ∨ ∃ verb action new expected target,
    Plain verb action ∧ op = onCell (some name) verb new expected target

theorem Early.ordinary {op : Operation} (hearly : op.Early name) : op.ordinary = true := by
  rcases hearly with hsuits | ⟨verb, action, new, expected, target, hplain, rfl⟩
  · exact ordinary_of_suits op hsuits
  · exact hplain.ordinary new expected target

theorem ordinaryAll_of_early {ops : List Operation} (hearly : ∀ op ∈ ops, op.Early name) :
    ordinaryAll ops = true := by
  induction ops with
  | nil => rfl
  | cons op ops ih =>
    obtain ⟨hop, hops⟩ := List.forall_mem_cons.mp hearly
    exact (ordinaryAll_cons op ops).mpr ⟨hop.ordinary, ih hops⟩

/-- The guard accepts all that is to be put into a cell when it is offered. -/
def Accepts (name : String) (guard : Guard) : World β → List Operation → Prop
  | _, [] => True
  | world, op :: ops =>
      (∀ obj, op.offered? world name = some obj → guard.accepts (world.facts obj) = true) ∧
        ∀ next reply, op.Performs world next reply → Accepts name guard next ops

/-- What is done before goes in step with what is done to the cell that is frozen already. -/
theorem early_inStep [Lawful β] {ops : List Operation} {left right : World β}
    (hpairs : (resembling β name guard frozen).Pairs left right) (hsound : left.Sound 0)
    (hearly : ∀ op ∈ ops, op.Early name) (haccepts : frozen = true → Accepts name guard left ops) :
    InStep (resembling β name guard frozen).Pairs (PerformsAll left ops)
      (PerformsAll right ops) := by
  induction ops generalizing left right with
  | nil => exact inStep_nil hpairs
  | cons op ops ih =>
    obtain ⟨hop, hops⟩ := List.forall_mem_cons.mp hearly
    have hfirst : InStep (resembling β name guard frozen).Pairs (op.Performs left)
        (op.Performs right) := by
      rcases hop with hsuits | ⟨verb, action, new, expected, target, hplain, rfl⟩
      · exact performs_inStep hpairs hsound rfl hsuits
      · exact plain_inStep hpairs hsound hplain fun hfrozen => (haccepts hfrozen).1
    refine inStep_cons hfirst fun after twin reply hleft _ hrelated => ?_
    exact ih hrelated (hleft.sound hsound hop.ordinary) hops
      fun hfrozen => (haccepts hfrozen).2 after reply hleft

/-! ## Making the cell -/

/-- A cell with a guard of its own is made for what an argument stands for. -/
def withGuard (kind : CellKind) (name : String) (guard : Guard) (value : Arg) : Operation :=
  newCell (some name) (.given guard) value (some (some kind)) (some .value) none

open Attempt

theorem acquireUnit_run (world : World β) (unit : Option ObjectId) :
    (unit.forM fun obj => modify (·.acquire 0 obj) : Attempt β Unit).run world =
      .ok ((), world.acquireAll 0 unit.toList) := by
  cases unit <;> rfl

omit [Resident β] in
theorem addCell_run {world next : World β} {kind : CellKind} {content : Option ObjectId}
    {frame : Frame} : (addCell name kind guard content : Attempt β Frame).run world =
      .ok (frame, next) ↔
        frame = .tidy [] .ok ∧ next = world.addCell name { kind, guard, slot := { content } } := by
  constructor
  · intro hrun
    exact run_pure.mp (bind_modify hrun)
  · rintro ⟨rfl, rfl⟩
    rfl

/-- A freezable cell is made without a question to the guard. -/
theorem withGuard_freezable {world created : World β}
    (hmade : (withGuard .freezable name guard value).Performs world created .ok) :
    world.cell? name = none ∧
      (∃ holder, (arg value : Attempt β (Option Holder)).run world = .ok (holder, world)) ∧
      created = (world.acquireAll 0 (value.unit? world).toList).addCell name
        { kind := .freezable, guard, slot := { content := value.unit? world } } := by
  rw [performs_iff, start] at hmade
  cases hrun : (begin? 0 (withGuard .freezable name guard value) : Attempt β Frame).run world with
  | error fault =>
    rw [hrun] at hmade
    cases (Solo.ends_reply.mp hmade).2
  | ok result =>
    obtain ⟨frame, next⟩ := result
    rw [hrun] at hmade
    obtain ⟨found, hname, hrun⟩ := bind_stays (stays_newCellName (some name)) hrun
    obtain ⟨hfound, hnew⟩ := newCellName_run hname
    obtain rfl := Option.some.inj hfound
    obtain ⟨given, hgiven, hrun⟩ := bind_stays (stays_guardOf (.given guard)) hrun
    obtain ⟨rfl, -⟩ := run_pure.mp hgiven
    obtain ⟨holder, hholder, hrun⟩ := bind_stays (stays_arg value) hrun
    obtain ⟨kind, hkind, hrun⟩ := bind_field hrun
    obtain rfl := Option.some.inj hkind
    obtain ⟨_, between, hacquire, hrun⟩ := run_bind.mp hrun
    rw [acquireUnit_run] at hacquire
    cases hacquire
    obtain ⟨rfl, rfl⟩ := addCell_run.mp hrun
    obtain ⟨rfl, -⟩ := Solo.ends_reply.mp hmade
    refine ⟨hnew, ⟨holder, hholder⟩, ?_⟩
    rw [arg_unit? hholder]

/-- A guard that accepts what it is asked about lets it pass. -/
theorem enforce_accepted {world : World β} {unit : Option ObjectId}
    (haccepted : ∀ obj, unit = some obj → guard.accepts (world.facts obj) = true) :
    ∃ asked, world.Agrees asked ∧
      (enforce 0 guard unit : Attempt β (Option ObjectId)).run world = .ok (none, asked) := by
  cases unit with
  | none => exact ⟨world, .refl world, rfl⟩
  | some obj =>
    have hconsult : (consult 0 guard (some obj) : Attempt β Bool).run world =
        .ok (true, world.ask 0 guard obj) := by
      rw [← haccepted obj rfl]
      rfl
    exact ⟨world.ask 0 guard obj, .ask world 0 guard obj,
      run_bind.mpr ⟨true, world.ask 0 guard obj, hconsult, rfl⟩⟩

/-- An atomic cell is made with the same content if the guard accepts it. -/
theorem withGuard_atomic {world created : World β}
    (hmade : (withGuard .freezable name guard value).Performs world created .ok)
    (haccepted : ∀ obj, value.unit? world = some obj → guard.accepts (world.facts obj) = true) :
    ∃ twin, (withGuard .atomic name guard value).Performs world twin .ok ∧
      (created.shareCell name).Agrees twin := by
  obtain ⟨hnew, ⟨holder, hholder⟩, rfl⟩ := withGuard_freezable hmade
  rw [← arg_unit? hholder] at haccepted ⊢
  obtain ⟨asked, hasked, henforce⟩ := enforce_accepted haccepted
  let unit := holder.map (·.unit)
  let twin := (asked.acquireAll 0 unit.toList).addCell name
    { kind := .atomic, guard, slot := { content := unit } }
  have hname : (newCellName (some name) : Attempt β String).run world = .ok (name, world) := by
    refine run_bind.mpr ⟨name, world, rfl, run_bind.mpr ⟨world, world, rfl, ?_⟩⟩
    rw [hnew]
    rfl
  have hrun : (begin? 0 (withGuard .atomic name guard value) : Attempt β Frame).run world =
      .ok (.tidy [] .ok, twin) := by
    refine run_bind.mpr ⟨name, world, hname, run_bind.mpr ⟨guard, world, rfl, ?_⟩⟩
    refine run_bind.mpr ⟨holder, world, hholder, run_bind.mpr ⟨some .atomic, world, rfl, ?_⟩⟩
    refine run_bind.mpr ⟨none, asked, henforce, ?_⟩
    exact run_bind.mpr ⟨(), _, acquireUnit_run asked unit, addCell_run.mpr ⟨rfl, rfl⟩⟩
  refine ⟨twin, ?_, ?_⟩
  · rw [performs_iff, start, hrun]
    exact Solo.ends_reply.mpr ⟨rfl, rfl⟩
  · have habsent : (world.acquireAll 0 unit.toList).cell? name = none := by
      rw [World.cell?, World.cells_acquireAll]
      exact hnew
    rw [World.shareCell, World.modifyCell_addCell habsent]
    exact (hasked.acquireAll 0 unit.toList).addCell name _

/-- A freezable cell that was just made goes in step with itself and with the atomic one. -/
theorem withGuard_pairs [Lawful β] {world created right : World β}
    (hmade : (withGuard .freezable name guard value).Performs world created .ok)
    (hsound : created.Sound 0)
    (hscripts : ∀ obj object, world.object? obj = some object →
      suitsAll true (some name) object.script = true)
    (hagrees : (if frozen then created.shareCell name else created).Agrees right) :
    (resembling β name guard frozen).Pairs created right := by
  obtain ⟨-, -, rfl⟩ := withGuard_freezable hmade
  let acquired := world.acquireAll 0 (value.unit? world).toList
  let cell : Cell := { kind := .freezable, guard, slot := { content := value.unit? world } }
  have hcell : (acquired.addCell name cell).cell? name = some cell := List.lookup_cons_self
  have hseen : (acquired.addCell name cell).modifyCell name (Cell.seen frozen) =
      if frozen then (acquired.addCell name cell).shareCell name else acquired.addCell name cell := by
    cases frozen with
    | false => exact World.modifyCell_self hsound.housed.names hcell rfl
    | true =>
      rw [if_pos rfl, World.shareCell]
      exact World.modifyCell_congr hsound.housed.names hcell rfl
  rw [← hseen] at hagrees
  refine hagrees.resembles hsound hcell rfl rfl fun obj object hobject => ?_
  obtain ⟨earlier, hearlier, hscript⟩ := World.script_acquireAll hobject
  rw [hscript]
  exact hscripts obj earlier hearlier

end Operation

end SharedCell
