import SharedCell.Payload

/-!
# Guards

A guard decides which objects may be shared between threads.  It sees whether the object is
frozen, whether it is permanent, and the payload, and nothing else.  An empty reference is always
shareable, so a guard is only asked about objects.
-/

namespace SharedCell

/-- What a guard sees of an object. -/
structure Facts where
  frozen : Bool
  permanent : Bool
  payload : Payload

structure Guard where
  name : String
  accepts : Facts → Bool
  /-- Whether the questions put to the guard are reported. -/
  reported : Bool := true

namespace Guard

/-- Accepts what can no longer be mutated; the guard of every cell that is given no other. -/
def standard : Guard where
  name := "FrozenOrPermanent"
  accepts facts := facts.permanent || facts.frozen
  reported := false

def acceptAll : Guard := { name := "all", accepts := fun _ => true }

def acceptNone : Guard := { name := "none", accepts := fun _ => false }

def evenPayload : Guard := { name := "even", accepts := fun facts => facts.payload.isEven }

def frozenOnly : Guard := { name := "frozen_only", accepts := Facts.frozen }

def permanentOnly : Guard := { name := "permanent_only", accepts := Facts.permanent }

def custom : List Guard :=
  [acceptAll, acceptNone, evenPayload, frozenOnly, permanentOnly]

def named? (name : String) : Option Guard :=
  custom.find? (·.name == name)

end Guard

end SharedCell
