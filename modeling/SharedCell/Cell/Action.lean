import SharedCell.Slot.Phase
import SharedCell.Text.Layout

/-!
# Actions on cells

What can be asked of a cell, the errand that each action sends to the slot of the cell, and what a
call yields.
-/

namespace SharedCell

open Text

inductive CellKind where
  | atomic
  | freezable
  | slot
  deriving DecidableEq

/-- What is asked of a cell, with its arguments resolved to objects.  `showText` writes the debug
text, `copy` reads the content for a new cell, and `freeze` vets the content. -/
inductive Action where
  | get
  | set (new : Option ObjectId)
  | replace (new : Option ObjectId)
  | take
  | compareAndSwap (expected new : Option ObjectId)
  | compareAndSet (expected new : Option ObjectId)
  | version
  | showText (layout : Layout)
  | copy
  | freeze
  | snapshot
  | swap (expected new : Option ObjectId)
  | swapIf (expected new : Option ObjectId)
  | assign (new : Option ObjectId)
  deriving DecidableEq

/-- What a call on a cell yields, including the units that it hands out. -/
inductive Outcome where
  | done
  | unit (unit : Option ObjectId)
  | flag (value : Bool)
  | version (version : Nat)
  | snapshot (unit : Option ObjectId) (version : Nat)
  | swapped (flag : Bool) (unit : Option ObjectId)
  | text (text : String)
  | rejected (obj : ObjectId)
  deriving DecidableEq

namespace Outcome

/-- The units that go to the caller. -/
def units : Outcome → List ObjectId
  | .unit owned | .snapshot owned _ | .swapped _ owned => owned.toList
  | _ => []

end Outcome

namespace Action

/-- The errand that an action sends to the slot. -/
def errand (kind : CellKind) : Action → Errand
  | .get | .copy | .freeze => .read 0
  | .set new | .replace new | .assign new => .exchange none new false
  | .take => .exchange none none false
  | .compareAndSwap expected new | .swap expected new => .exchange (some expected) new true
  | .compareAndSet expected new | .swapIf expected new => .exchange (some expected) new false
  | .version => .version
  | .showText _ => if kind = .freezable then .read 0 else .snapshot
  | .snapshot => .snapshot

/-- Whether an action leaves its cell as it is to the owner of the cell, so that several threads can
perform it at once on a freezable cell.  Everything else asks for the cell as a whole. -/
def looks : Action → Bool
  | .get | .showText _ => true
  | _ => false

/-- The object that an action would store. -/
def new? : Action → Option ObjectId
  | .set new | .replace new | .assign new => new
  | .compareAndSwap _ new | .compareAndSet _ new | .swap _ new | .swapIf _ new => new
  | _ => none

end Action

end SharedCell
