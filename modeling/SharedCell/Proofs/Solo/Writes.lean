import Mathlib
import SharedCell.Proofs.Agenda.StartChanges
import SharedCell.Proofs.Solo.Registers

/-!
# Steps that write

The register of a cell changes in few steps only: a call on the cell stores, a copy of another cell
takes its place, or an operation begins that makes the cell or consumes it.  Whatever else a thread
does, and whatever destroys an object, leaves all registers alone.
-/

namespace SharedCell

open Operation

variable {β : Type}

/-! ## Copies -/

theorem World.register?_addCell_self (world : World β) (name : String) (kind : CellKind)
    (guard : Guard) (content : Option ObjectId) :
    (world.addCell name { kind, guard, slot := { content } }).register? name =
      some { content, version := 0 } := by
  rw [register?, cell?, addCell, List.lookup_cons_self]
  rfl

theorem World.register?_addCell_of_ne {world : World β} {name other : String} (hne : other ≠ name)
    (cell : Cell) : (world.addCell name cell).register? other = world.register? other := by
  rw [register?, cell?_addCell_of_ne hne, register?]

/-- A call that has its outcome makes at most one cell, for its copy. -/
theorem Call.register?_settle (call : Call) (world : World β) (outcome : Outcome) (name : String) :
    (call.settle world outcome).1.register? name = world.register? name ∨
      ∃ content, call.action = .copy ∧ call.copy = some name ∧ outcome = .unit content ∧
        (call.settle world outcome).1.register? name = some { content, version := 0 } := by
  unfold settle
  split
  · rename_i content target haction htarget
    by_cases hname : name = target
    · subst hname
      dsimp only
      split
      · exact .inr ⟨content, haction, htarget, rfl, world.register?_addCell_self _ _ _ _⟩
      · split
        · exact .inr ⟨content, haction, htarget, rfl, World.register?_addCell_self _ _ _ _ _⟩
        · exact .inl rfl
    · left
      dsimp only
      split
      · exact World.register?_addCell_of_ne hname _
      · split
        · rw [World.register?_addCell_of_ne hname, World.register?,
            World.cell?_eraseCell_of_ne hname, World.register?]
        · rfl
  · left
    have hkind : ∀ cell, world.cell? call.cell = some cell →
        ({ cell with kind := .atomic } : Cell).slot.register = cell.slot.register := fun _ _ => rfl
    exact World.register?_modifyCell hkind name
  · exact .inl rfl

/-! ## Beginnings of operations -/

namespace World

/-- No register changes, but a cell of the given name may be new. -/
def Makes (given : Option String) (world next : World β) : Prop :=
  ∀ name, next.register? name = world.register? name ∨
    given = some name ∧ ∃ content, next.register? name = some { content, version := 0 }

variable {given : Option String} {world next : World β}

theorem Makes.same (hmakes : world.Makes none next) (name : String) :
    next.register? name = world.register? name :=
  (hmakes name).resolve_right fun ⟨hgiven, _⟩ => by cases hgiven

theorem Makes.of_cells (hcells : next.cells = world.cells) : world.Makes given next :=
  fun _ => .inl (register?_congr hcells)

theorem Lax.makes : Lax (Makes given : World β → World β → Prop) where
  tables := fun _ hcells => .of_cells hcells
  use := fun _ name _ _ => fun other =>
    .inl (register?_modifyCell (fun found _ => by rw [Cell.use_slot]) other)
  trans := by
    intro world between next hfirst hsecond name
    rcases hsecond name with hsame | hmade
    · rw [hsame]
      exact hfirst name
    · exact .inr hmade

theorem makes_addCell (world : World β) (name : String) (kind : CellKind) (guard : Guard)
    (content : Option ObjectId) :
    world.Makes (some name) (world.addCell name { kind, guard, slot := { content } }) := by
  intro other
  by_cases hname : other = name
  · subst hname
    exact .inr ⟨rfl, content, world.register?_addCell_self _ _ _ _⟩
  · exact .inl (register?_addCell_of_ne hname _)

theorem register?_eraseCell_self (world : World β) (name : String) :
    (world.eraseCell name).register? name = none := by
  rw [register?, Option.map_eq_none_iff]
  exact lookup_filter_ne world.cells name

end World

/-- How an operation changes the register of a cell when it begins. -/
inductive Operation.Rewrites : Operation → String → Option Register → Option Register → Prop where
  | newCell (name : String) (guard : GuardArg) (value : Arg) (kind : Option (Option CellKind))
      (origin : Option Origin) (source : Option String) (content : Option ObjectId) :
      Rewrites (.newCell (some name) guard value kind origin source) name none
        (some { content, version := 0 })
  | dropCell (name : String) (register : Register) :
      Rewrites (.dropCell (some name)) name (some register) none
  | intoInner (name : String) (target : Option String) (register : Register) :
      Rewrites (.intoInner (some name) target) name (some register) none

namespace Attempt

variable [Resident β] {world next : World β} {thread : ℕ} {frame : Frame}

/-- An operation that takes no cell out of the table makes one at most. -/
theorem makes_admits (world : World β) (op : Operation) (hkeeps : op.erased? = none) :
    world.Admits thread op (World.Makes op.made?) where
  lenient := World.Lax.makes.lenient thread
  acquire _ _ _ := .of_cells rfl
  freeze _ _ _ := .of_cells rfl
  make hmade before kind guard content := hmade ▸ before.makes_addCell _ kind guard content
  erase herased := by
    rw [hkeeps] at herased
    cases herased

theorem alloc_makes (object : Option String) (value : Option Payload)
    (mutability : Option Mutability) (refs : List (Option String)) (script : List Operation) :
    (startAlloc thread object value mutability refs script : Attempt β Frame).Relates
      (World.Makes none) := by
  intro world frame next hrun
  have hgathered : world.Makes none (gather thread refs world).1 :=
    gather_relates (makes_admits world (.alloc object value mutability refs script) rfl) refs
  rcases alloc_run hrun with
    ⟨fault, -, rfl⟩ | ⟨name, mutability, payload, body, -, added, obj, hadd, -, rfl⟩
  · exact hgathered
  · obtain ⟨rfl, rfl⟩ := Prod.mk.inj hadd
    exact World.Lax.makes.trans hgathered (.of_cells rfl)

theorem register?_begin {op : Operation} (hordinary : op.ordinary = true)
    (hrun : (begin? thread op : Attempt β Frame).run world = .ok (frame, next)) (name : String) :
    next.register? name = world.register? name ∨
      op.Rewrites name (world.register? name) (next.register? name) := by
  cases op with
  | alloc object value mutability refs script =>
    exact .inl ((alloc_makes object value mutability refs script world frame next hrun).same name)
  | newCell cell guard value kind origin source =>
    obtain ⟨made, hname, -⟩ := bind_stays (stays_newCellName cell) hrun
    obtain ⟨rfl, hnew⟩ := newCellName_run hname
    rcases begin_relates hordinary rfl (makes_admits world _ rfl) hrun name with
      hsame | ⟨heq, content, hafter⟩
    · exact .inl hsame
    · obtain rfl := Option.some.inj heq
      right
      rw [hafter, World.register?, hnew]
      exact .newCell made guard value kind origin source content
  | dropCell cell =>
    obtain ⟨erased, found, rfl, hfound, -, rfl, -⟩ := dropCell_run hrun
    by_cases hname : name = erased
    · subst hname
      right
      rw [World.register?_eraseCell_self, World.register?, hfound]
      exact .dropCell name _
    · left
      rw [World.register?, World.cell?_eraseCell_of_ne hname, World.register?]
  | intoInner cell target =>
    obtain ⟨erased, found, rfl, hfound, -, rfl, -⟩ := intoInner_run hrun
    by_cases hname : name = erased
    · subst hname
      right
      rw [World.register?_eraseCell_self, World.register?, hfound]
      exact .intoInner name target _
    · left
      rw [World.register?, World.cell?_eraseCell_of_ne hname, World.register?]
  | race | stress => exact absurd hordinary (by simp [Operation.ordinary])
  | _ => exact .inl ((begin_relates hordinary rfl (makes_admits world _ rfl) hrun).same name)

end Attempt

theorem Operation.register?_start [Resident β] {op : Operation} (hordinary : op.ordinary = true)
    (thread : ℕ) (world : World β) (name : String) :
    (op.start thread world).1.register? name = world.register? name ∨
      op.Rewrites name (world.register? name) ((op.start thread world).1.register? name) := by
  unfold Operation.start
  split
  · rename_i frame next hrun
    exact Attempt.register?_begin hordinary hrun name
  · exact .inl rfl

/-! ## Steps -/

namespace Frame

variable [Resident β] {world next : World β} {thread : ℕ}

/-- The operation that is begun next. -/
def op? : List Frame → Option Operation
  | .script _ (op :: _) :: _ | .rounds _ _ (op :: _) _ :: _ => some op
  | _ => none

/-- A step that changes the register of a cell. -/
inductive Writes (world next : World β) (agenda : List Frame) (name : String) : Prop where
  | stores (call : Call) (below : List Frame) (hagenda : agenda = .call call :: below)
      (hname : call.cell = name) (hstores : call.stage.phase.stores = true)
  | copies (call : Call) (below : List Frame) (content : Option ObjectId)
      (hagenda : agenda = .call call :: below) (hstage : call.stage = .finished (.unit content))
      (haction : call.action = .copy) (hcopy : call.copy = some name)
      (hafter : next.register? name = some { content, version := 0 })
  | starts (op : Operation) (hop : op? agenda = some op)
      (hrewrites : op.Rewrites name (world.register? name) (next.register? name))

theorem register?_step {agenda later : List Frame}
    (hordinary : ∀ frame ∈ agenda, frame.ordinary = true)
    (hstep : step thread world agenda = some (next, later)) (name : String) :
    next.register? name = world.register? name ∨ Writes world next agenda name := by
  cases agenda with
  | nil => cases hstep
  | cons top below =>
    have htop := hordinary top List.mem_cons_self
    cases move_of_step hstep with
    | @call active _ _ _ hactive =>
      rcases Call.step_cases hactive with
        ⟨outcome, hfinished, rfl, rfl⟩ | ⟨cell, slot, stage, effect, hcell, hstage, rfl, rfl⟩
      · rcases active.register?_settle world outcome name with
          hsame | ⟨content, haction, hcopy, rfl, hafter⟩
        · exact .inl hsame
        · exact .inr (.copies active below content rfl hfinished haction hcopy hafter)
      · rw [World.register?_congr (Call.cells_affect _ thread cell.guard effect)]
        cases hstores : active.stage.phase.stores with
        | true =>
          by_cases hname : active.cell = name
          · exact .inr (.stores active below rfl hname hstores)
          · left
            rw [World.register?, World.cell?_modifyCell_of_ne (Ne.symm hname), World.register?]
        | false =>
          left
          refine World.register?_modifyCell (fun found hfound => ?_) name
          obtain rfl := Option.some.inj (hcell.symm.trans hfound)
          exact Stage.register_step hstage hstores
    | reply told frame => exact .inl (by cases frame <;> rfl)
    | chore chore => exact .inl (chore.register?_perform thread world name)
    | tell owner op ops =>
      rw [Frame.ordinary, ordinaryAll_cons] at htop
      exact (op.register?_start htop.1 thread world name).imp id (.starts op rfl)
    | @surrender _ ref after _ htake =>
      exact .inl (World.register?_congr
        ((after.cells_letGo thread ref).trans (World.cells_takeRef htake)))
    | perform remaining body op =>
      rw [Frame.ordinary, Bool.and_eq_true, ordinaryAll_cons] at htop
      exact (op.register?_start htop.2.1 thread world name).imp id (.starts op rfl)
    | stress => cases htop
    | refuse | look | write | told | surrendered | ended | again => exact .inl rfl

end Frame

end SharedCell
