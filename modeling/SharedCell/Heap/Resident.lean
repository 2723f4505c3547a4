import SharedCell.Heap.Counted
import SharedCell.Payload.Text

/-!
# Residents of a heap

What a session needs of the objects of its heap beyond their counts: they are born with a payload,
can be frozen, and are described in texts.  The two heaps differ in what else they offer.
-/

namespace SharedCell

open Text

/-- What a heap offers besides counted objects. -/
structure Offer where
  /-- A sole owner can get hold of the payload of a mutable object. -/
  mutation : Bool
  /-- Payloads are compared, hashed and displayed through units. -/
  values : Bool
  /-- The address of a destroyed object can still be compared with. -/
  staleAddresses : Bool
  /-- Calls that acquire and release are counted, and two threads can race. -/
  tallies : Bool

class Resident (β : Type) extends Counted β where
  offer : Offer
  typeName : String
  /-- A new object with its first unit, or `none` if the heap has no such objects.  Permanent
  objects are not counted and have no first unit. -/
  make : Mutability → Payload → Option β
  count : β → Int
  payload : β → Payload
  setPayload : β → Payload → β
  freeze : β → β
  /-- Whether the object was neither frozen nor born permanent. -/
  isMutable : β → Bool
  shape : Layout → β → Shape

namespace Resident

variable {β : Type} [Resident β]

def facts (body : β) : Facts where
  frozen := Counted.isFrozen body
  permanent := Counted.isPermanent body
  payload := payload body

end Resident

end SharedCell
