import SharedCell.Heap.Resident

/-!
# Flagged objects

The objects of the heap that requests call `tracked`.  Each has an integer count, which starts at
one and would show every call too many, and a flag that tells whether it was frozen.  None of them
is permanent.
-/

namespace SharedCell

open Text

structure Flagged where
  count : Int := 1
  frozen : Bool
  payload : Payload

namespace Flagged

def make? (mutability : Mutability) (payload : Payload) : Option Flagged :=
  match mutability with
  | .mutable => some { frozen := false, payload }
  | .frozen => some { frozen := true, payload }
  | .permanent => none

def acquire (object : Flagged) : Flagged :=
  { object with count := object.count + 1 }

def release (object : Flagged) : Flagged × Bool :=
  ({ object with count := object.count - 1 }, object.count == 1)

def shape (layout : Layout) (object : Flagged) : Shape :=
  .tuple "Tracked" [object.payload.shape layout]

instance : Resident Flagged where
  acquire := acquire
  release := release
  isFrozen := frozen
  offer := { mutation := false, values := true, staleAddresses := true, tallies := true }
  typeName := "oracle_driver::heap::Tracked"
  make := make?
  count := count
  payload := payload
  setPayload object payload := { object with payload }
  freeze object := { object with frozen := true }
  isMutable object := !object.frozen
  shape := shape

end Flagged

end SharedCell
