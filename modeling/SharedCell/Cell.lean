import SharedCell.Cell.Stage

/-!
# Cells

A cell is a slot with a kind and a guard.  An atomic cell admits only objects that its guard
accepts.  A freezable cell belongs to one owner and admits all objects; freezing makes it atomic
if the guard accepts its content.  A bare slot has no guard.

Threads share atomic cells and slots as they like.  Of a freezable cell they share looks at its
content, and whatever replaces the content or freezes the cell has the cell for itself.
-/

namespace SharedCell

structure Cell where
  kind : CellKind
  guard : Guard
  slot : Slot
  /-- How many operations in progress use the cell beside others. -/
  users : Nat := 0
  /-- Whether an operation in progress has taken the cell out. -/
  out : Bool := false
  /-- The threads whose operations in progress look at a freezable cell. -/
  lookers : List Nat := []

/-- What can be seen of a cell: its version unless it is freezable, and its content; or nothing of a
cell that is taken out or of a freezable one that is looked at. -/
inductive CellView where
  | out
  | content (version : Option Nat) (content : Option ObjectId)
  deriving DecidableEq

namespace Cell

/-- Whether operations in progress keep a thread from using the cell.  A freezable cell cannot be
changed while it is looked at, and a thread that looks at it does nothing else with it before it is
done, also not when it is interrupted by the destruction of an object. -/
def bars (cell : Cell) (thread : Nat) (looks : Bool) : Bool :=
  cell.out || (cell.kind = .freezable && cell.users != 0 &&
    (!looks || cell.lookers.contains thread))

/-- A freezable cell is taken out by an operation that does more than to look at it; otherwise cells
count their users. -/
def use (cell : Cell) (thread : Nat) (looks : Bool) : Cell :=
  if cell.kind = .freezable then
    if looks then { cell with users := cell.users + 1, lookers := thread :: cell.lookers }
    else { cell with out := true }
  else { cell with users := cell.users + 1 }

/-- Ends a use of the cell.  Once nobody uses it any more, nobody looks at it. -/
def leave (cell : Cell) (thread : Nat) : Cell :=
  if cell.out then { cell with out := false }
  else
    { cell with
      users := cell.users - 1
      lookers := if cell.users ≤ 1 then [] else cell.lookers.erase thread }

/-- Whether no operation in progress uses the cell, so that it can be consumed. -/
def idle (cell : Cell) : Bool :=
  cell.users == 0 && !cell.out

def view (cell : Cell) : CellView :=
  if cell.out || (cell.kind = .freezable && cell.users != 0) then .out
  else
    .content (if cell.kind = .freezable then none else some cell.slot.version) cell.slot.content

end Cell

end SharedCell
