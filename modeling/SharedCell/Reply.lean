import SharedCell.Cell
import SharedCell.Operation

/-!
# Replies

What operations answer.  Objects are named by their place in the heap; a report puts in their names.
-/

namespace SharedCell

/-- Why an operation was not performed. -/
inductive Fault where
  | malformed
  | badValue
  | unknownHandle
  | unknownCell
  | unknownObject
  | destroyed
  | nameTaken
  | unsupported
  | busy
  /-- The guard rejected an object that was to be shared. -/
  | unshareable (obj : ObjectId)
  /-- No thread can make a step. -/
  | stuck
  deriving DecidableEq

/-- What can be seen between operations: the count of every object, or that it was destroyed, and
every cell. -/
structure Snapshot where
  counts : List (String × Option Int)
  cells : List (String × CellView)

inductive Reply where
  | ok
  | null
  | flag (value : Bool)
  | version (version : Nat)
  | text (text : String)
  | unit (obj : Option ObjectId)
  | snapshot (unit : Option ObjectId) (version : Nat)
  | swapped (flag : Bool) (unit : Option ObjectId)
  | info (obj : ObjectId) (facts : Facts) (count : Int)
  | comparison (order : Option Ordering)
  /-- Whether a unit, however it is looked at, has the address of its object. -/
  | identity (same : Bool)
  | errors (equal cloneEqual : Bool)
  | all (replies : List Reply)
  /-- A race: the reply to the reader, and at each stall what could be seen and the reply to the
  entry that ran. -/
  | race (reader : Reply) (stalls : List (Snapshot × Reply))
  | stress (errors : Nat) (versionsMatch : Bool) (replaced : Option Nat)
  | fault (fault : Fault)
  deriving Inhabited

namespace Outcome

def reply : Outcome → Reply
  | .done => .ok
  | .unit owned => .unit owned
  | .flag value => .flag value
  | .version seen => .version seen
  | .snapshot owned seen => .snapshot owned seen
  | .swapped value owned => .swapped value owned
  | .text shown => .text shown
  | .rejected obj => .fault (.unshareable obj)

end Outcome

end SharedCell
