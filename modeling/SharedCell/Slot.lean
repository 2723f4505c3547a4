import SharedCell.Heap.Counted

/-!
# Slots

A slot holds one unit on its content and counts how often the content was replaced.  Content and
version are touched under the lock only.  A reader that copied the content pins it before it gives
up the lock, and drops the pin once it has acquired a unit of its own.  The pins of all versions of
one parity share a counter; whoever displaced a content waits for the counter of the displaced
version before the displaced unit leaves the slot.
-/

namespace SharedCell

/-- Pins are counted by the parity of the version that they were taken at. -/
structure Pins where
  even : Nat := 0
  odd : Nat := 0
  deriving DecidableEq

namespace Pins

def count (pins : Pins) (version : Nat) : Nat :=
  if version % 2 = 0 then pins.even else pins.odd

def pin (pins : Pins) (version : Nat) : Pins :=
  if version % 2 = 0 then { pins with even := pins.even + 1 } else { pins with odd := pins.odd + 1 }

def unpin (pins : Pins) (version : Nat) : Pins :=
  if version % 2 = 0 then { pins with even := pins.even - 1 } else { pins with odd := pins.odd - 1 }

end Pins

structure Slot where
  content : Option ObjectId := none
  version : Nat := 0
  locked : Bool := false
  pins : Pins := {}
  deriving DecidableEq

namespace Slot

def lock (slot : Slot) : Slot :=
  { slot with locked := true }

def unlock (slot : Slot) : Slot :=
  { slot with locked := false }

def pin (slot : Slot) (version : Nat) : Slot :=
  { slot with pins := slot.pins.pin version }

def unpin (slot : Slot) (version : Nat) : Slot :=
  { slot with pins := slot.pins.unpin version }

/-- Replaces the content.  Every replacement counts, also that of a content by itself. -/
def store (slot : Slot) (content : Option ObjectId) : Slot :=
  { slot with content, version := slot.version + 1 }

end Slot

end SharedCell
