import SharedCell.Agenda.Start.Many

/-!
# Starting operations

The first step of an operation checks its fields one after the other and puts on the agenda what
it leads to.
-/

namespace SharedCell.Operation

open Attempt

variable {β : Type} [Resident β]

/-- The frame that an operation puts on the agenda, if it passes its checks. -/
def begin? (thread : Nat) : Operation → Attempt β Frame
  | .malformed => throw .malformed
  | .alloc object value mutability refs script =>
      startAlloc thread object value mutability refs script
  | .clone source target => startClone thread source target
  | .drop source => do pure (.tidy [.release (← pull source)] .ok)
  | .freeze source => startFreeze source
  | .info source => startInfo source
  | .mutate value source => startMutate value source
  | .sameObject left right => do
      let left ← handle left
      let right ← handle right
      answer (.flag (left.unit == right.unit))
  | .compare left right => startCompare left right
  | .hash source => startHash source
  | .identity source => startIdentity source
  | .debug source layout => startDebug source layout
  | .display source layout => startDisplay source layout
  | .intoRaw raw source => startIntoRaw raw source
  | .fromRaw target raw => startFromRaw target raw
  | .check source guard => startCheck thread source guard
  | .ensure source guard => startEnsure thread source guard
  | .compareErrors left right => startCompareErrors thread left right
  | .newCell cell guard value kind origin source =>
      startNewCell thread cell guard value kind origin source
  | .dropCell cell => startDropCell cell
  | .intoInner cell target => startIntoInner cell target
  | .freezeCell cell => startFreezeCell thread cell
  | .onCell cell verb new expected target => startOnCell thread cell verb new expected target
  | .rounds count body => startRounds count body
  | .race cell timing reader script target => startRace thread cell timing reader script target
  | .stress cell count threads counted => startStress thread cell count threads counted

/-- The first step of an operation. -/
def start (thread : Nat) (op : Operation) (world : World β) : World β × Frame :=
  match (begin? thread op).run world with
  | .ok (frame, world) => (world, frame)
  | .error fault => (world, .tidy [] (.fault fault))

end SharedCell.Operation
