import SharedCell.Heap.Resident

/-!
# Staged objects

The objects of the heap that requests call `managed`.  Each is in one of three stages.  A mutable
object can be frozen, once and for ever; a permanent object stays so, is never counted and never
destroyed.
-/

namespace SharedCell

open Text

structure Staged where
  count : Nat
  stage : Mutability
  payload : Payload

namespace Staged

def make (stage : Mutability) (payload : Payload) : Staged where
  count := if stage = .permanent then 0 else 1
  stage := stage
  payload := payload

def acquire (object : Staged) : Staged :=
  if object.stage = .permanent then object else { object with count := object.count + 1 }

def release (object : Staged) : Staged × Bool :=
  if object.stage = .permanent then (object, false)
  else ({ object with count := object.count - 1 }, object.count == 1)

/-- Only a mutable object changes its stage. -/
def freeze (object : Staged) : Staged :=
  if object.stage = .mutable then { object with stage := .frozen } else object

def shape (layout : Layout) (object : Staged) : Shape :=
  .record "Managed" [
    ("state", .leaf (quoted object.stage.name)),
    ("value", object.payload.shape layout)]

instance : Resident Staged where
  acquire := acquire
  release := release
  isFrozen object := object.stage == .frozen
  isPermanent object := object.stage == .permanent
  offer := { mutation := true, values := false, staleAddresses := false, tallies := false }
  typeName := "atomicref::managed::Managed<oracle_driver::heap::MPayload>"
  make stage payload := some (make stage payload)
  count object := object.count
  payload := payload
  setPayload object payload := { object with payload }
  freeze := freeze
  isMutable object := object.stage == .mutable
  shape := shape

end Staged

end SharedCell
