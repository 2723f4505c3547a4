import SharedCell.Guard

/-!
# Counted objects

What cells need of the objects that they hold: strong units are added and taken away one by one,
the last one taken away destroys the object, and an object tells whether it is frozen or
permanent.  Cells use nothing else of an object, so they work alike on every heap.
-/

namespace SharedCell

/-- The place of an object in its heap.  Places are never used again. -/
abbrev ObjectId := Nat

class Counted (β : Type) where
  /-- The object with one more unit. -/
  acquire : β → β
  /-- The object with one unit less, and whether that was the last one. -/
  release : β → β × Bool
  isFrozen : β → Bool
  isPermanent : β → Bool := fun _ => false

/-- How an object is born. -/
inductive Mutability where
  | mutable
  | frozen
  | permanent
  deriving DecidableEq

namespace Mutability

def named? : String → Option Mutability
  | "mutable" => some .mutable
  | "frozen" => some .frozen
  | "permanent" => some .permanent
  | _ => none

def name : Mutability → String
  | .mutable => "mutable"
  | .frozen => "frozen"
  | .permanent => "permanent"

end Mutability

end SharedCell
