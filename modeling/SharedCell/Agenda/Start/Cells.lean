import SharedCell.Agenda.Start.Objects

/-!
# Starting operations on cells

The first steps of the operations that make, use and consume cells.  A call on a cell keeps its
arguments' handles and the cell in use until it ends.
-/

namespace SharedCell.Operation

open Attempt Text

variable {β : Type} [Resident β]

def addCell (name : String) (kind : CellKind) (guard : Guard) (content : Option ObjectId) :
    Attempt β Frame := do
  modify (·.addCell name { kind, guard, slot := { content } })
  answer .ok

/-- The guard of a cell that is made by default. -/
def defaultGuard : GuardArg → Guard
  | .absent => .standard
  | _ => .acceptNone

def startNewCell (thread : Nat) (cell : Option String) (guard : GuardArg) (value : Arg)
    (kind : Option (Option CellKind)) (origin : Option Origin) (source : Option String) :
    Attempt β Frame := do
  let name ← newCellName cell
  let given ← guardOf guard
  let value ← arg value
  let unit := value.map (·.unit)
  let acquireUnit : Attempt β Unit :=
    unit.forM fun obj => modify (·.acquire thread obj)
  match ← field kind, origin, guard with
  | some .atomic, some .value, _ =>
      match ← enforce thread given unit with
      | some obj => answer (.fault (.unshareable obj))
      | none =>
          acquireUnit
          addCell name .atomic given unit
  | some .atomic, some .empty, .absent => addCell name .atomic .standard none
  | some .atomic, some .default, _ => addCell name .atomic (defaultGuard guard) none
  | some .freezable, some .value, _ =>
      acquireUnit
      addCell name .freezable given unit
  | some .freezable, some .default, _ => addCell name .freezable (defaultGuard guard) none
  | some .slot, some .value, .absent =>
      acquireUnit
      addCell name .slot .standard unit
  | some .slot, some .moved, .absent =>
      let ids ← use [value]
      let moved ← pull source
      modify (·.addCell name { kind := .slot, guard := .standard, slot := { content := moved } })
      pure (.tidy (ids.map .endUse) .ok)
  | _, _, _ => throw .unsupported

def startDropCell (cell : Option String) : Attempt β Frame := do
  let (name, cell) ← Attempt.cell cell
  require cell.idle .busy
  modify (·.eraseCell name)
  pure (.tidy (delivery none cell.slot.content) .ok)

def startIntoInner (cell target : Option String) : Attempt β Frame := do
  let (name, cell) ← Attempt.cell cell
  require (cell.kind != .freezable) .unsupported
  require cell.idle .busy
  modify (·.eraseCell name)
  pure (.tidy (delivery target cell.slot.content) (.unit cell.slot.content))

def makeCall (thread : Nat) (name : String) (cell : Cell) (action : Action)
    (target copy : Option String) (holders : List (Option Holder)) : Attempt β Call := do
  let ids ← use holders
  modify (·.useCell name thread action.looks)
  pure { cell := name, action, stage := action.opening cell.kind, target, copy, holders := ids }

def startFreezeCell (thread : Nat) (cell : Option String) : Attempt β Frame := do
  let (name, cell) ← Attempt.cell cell
  require (cell.kind = .freezable) .unsupported
  require (!cell.bars thread false) .busy
  pure (.call (← makeCall thread name cell .freeze none none []))

/-- The action that a verb stands for on a kind of cell, if the kind has it. -/
def action? (kind : CellKind) (expected new : Option ObjectId) : Verb → Option Action
  | .get => some .get
  | .set => if kind = .slot then none else some (.set new)
  | .replace => if kind = .atomic then some (.replace new) else none
  | .take => if kind = .atomic then some .take else none
  | .compareAndSwap => if kind = .slot then none else some (.compareAndSwap expected new)
  | .compareAndSet => if kind = .slot then none else some (.compareAndSet expected new)
  | .version => if kind = .freezable then none else some .version
  | .cloneCell _ => if kind = .atomic then some .copy else none
  | .debug (some layout) => if kind = .slot then none else some (.showText layout)
  | .snapshot => if kind = .slot then some .snapshot else none
  | .swap => if kind = .slot then some (.swap expected new) else none
  | .swapIf => if kind = .slot then some (.swapIf expected new) else none
  | .assign => if kind = .slot then some (.assign new) else none
  | .guard | .debug none | .other => none

/-- What a content is compared with: the object of a handle, which stays in use, or an address. -/
inductive Comparand where
  | byHandle
  | byAddress

def comparing (kind : CellKind) : Verb → Option Comparand
  | .compareAndSwap | .compareAndSet => if kind = .slot then none else some .byHandle
  | .swap | .swapIf => if kind = .slot then some .byAddress else none
  | _ => none

/-- What a call compares the content with, and the handle that it keeps for that. -/
def comparand (kind : CellKind) (verb : Verb) (expected : Arg) :
    Attempt β (Option Holder × Option ObjectId) :=
  match comparing kind verb with
  | none => pure (none, none)
  | some .byHandle => do
      let holder ← arg expected
      pure (holder, holder.map (·.unit))
  | some .byAddress => do pure (none, ← address expected)

/-- The name of the cell that a call copies its cell to. -/
def copyName (kind : CellKind) (verb : Verb) : Attempt β (Option String) :=
  match kind, verb with
  | .atomic, .cloneCell copy => some <$> newCellName copy
  | _, _ => pure none

def startOnCell (thread : Nat) (cell : Option String) (verb : Verb) (new expected : Arg)
    (target : Option String) : Attempt β Frame := do
  let (name, cell) ← Attempt.cell cell
  require (!cell.bars thread verb.looks) .busy
  let new ← arg new
  let (holder, expected) ← comparand cell.kind verb expected
  let copy ← copyName cell.kind verb
  match cell.kind, verb with
  | .atomic, .guard => answer (.text cell.guard.name)
  | .atomic, .debug none | .freezable, .debug none => throw .malformed
  | _, _ =>
      match action? cell.kind expected (new.map (·.unit)) verb with
      | none => throw .unsupported
      | some action => pure (.call (← makeCall thread name cell action target copy [holder, new]))

end SharedCell.Operation
