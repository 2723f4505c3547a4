import SharedCell.World

/-!
# Agendas

The agenda of a thread is the stack of what it has begun and not yet ended, the innermost on top.
A call on a cell that gives back the last unit on an object is interrupted by the script of that
object, whose operations are interrupted in turn by the scripts of what they destroy.
-/

namespace SharedCell

/-- A call on a cell, with what becomes of its outcome. -/
structure Call where
  cell : String
  action : Action
  stage : Stage
  /-- The handle that receives the unit; without one the unit is given back. -/
  target : Option String := none
  /-- The name of the cell that a copied content is for. -/
  copy : Option String := none
  /-- The handles that the call uses as arguments. -/
  holders : List Nat := []

/-- What an operation still has to do once its reply is settled. -/
inductive Chore where
  | release (unit : ObjectId)
  | store (name : String) (unit : ObjectId)
  | endUse (holder : Nat)
  | leaveCell (cell : String)
  /-- The events of a thread that has ended take their place in the log. -/
  | join
  /-- Scripts are performed and all is logged from now on. -/
  | resume

/-- A race of a reader, which is a thread of its own, with the entries of a script.  The reader
stalls when it acquires a unit, unless it does so on the object that it wants to store, and an entry
runs at each stall. -/
structure Race where
  timing : Timing
  own : Option ObjectId
  /-- The reader's call before the reader is started. -/
  reader : Option Call
  script : List Operation
  /-- What could be seen when the running entry was started. -/
  seen : Option Snapshot := none
  /-- The stalls whose entries have ended, the last one first. -/
  stalls : List (Snapshot × Reply) := []

/-- A run of many calls on one cell, which counts rejections and replacements. -/
structure Stress where
  cell : String
  /-- The version of the cell at the start. -/
  base : Nat
  /-- How often each list of actions is still to be performed. -/
  threads : List (Nat × List Action)
  pending : List Action := []
  running : Option Action := none
  errors : Nat := 0
  replaced : Nat := 0
  /-- Once the cell is being emptied: whether its version had grown by the replacements. -/
  versionsMatch : Option Bool := none
  counted : Bool
  holders : List Nat

inductive Frame where
  | call (call : Call)
  /-- Exclusive access to the payload of an object: first its state is looked at, then its count. -/
  | mutate (holder : Nat) (obj : ObjectId) (payload : Payload) (stateSeen : Bool)
  | tidy (chores : List Chore) (reply : Reply)
  /-- What a destroyed object has still to perform before it gives up its units. -/
  | script (owner : ObjectId) (ops : List Operation)
  | surrender (owner : ObjectId)
  /-- Operations performed in turn, with the replies of this round, the last one first. -/
  | rounds (left : Nat) (body ops : List Operation) (replies : List Reply)
  | race (race : Race)
  | stress (stress : Stress)

namespace Frame

/-- The reply of an operation that has nothing left to do. -/
def reply? : List Frame → Option Reply
  | [.tidy [] reply] => some reply
  | _ => none

end Frame

end SharedCell
