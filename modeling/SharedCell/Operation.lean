import SharedCell.Cell.Action
import SharedCell.Guard

/-!
# Operations

The operations that a session performs, as they are asked for.  An operation is asked for with
fields that can be missing or of the wrong type.  Such a field is `none` or `malformed`, since when
it is found out, and which fault it is, depends on what the operation checks before.
-/

namespace SharedCell

open Text

/-- A reference to a handle where an empty reference is allowed too. -/
inductive Arg where
  | empty
  | named (name : String)
  | malformed

inductive GuardArg where
  | absent
  | given (guard : Guard)
  | malformed

/-- Where the content of a new cell comes from: a unit of its own on an object, nothing, the
default of the cell's type, or the unit of a handle. -/
inductive Origin where
  | value
  | empty
  | default
  | moved

/-- What is asked of a cell by name. -/
inductive Verb where
  | get
  | set
  | replace
  | take
  | compareAndSwap
  | compareAndSet
  | version
  | guard
  | cloneCell (copy : Option String)
  | debug (layout : Option Layout)
  | snapshot
  | swap
  | swapIf
  | assign
  | other

/-- Whether a freezable cell is only looked at. -/
def Verb.looks : Verb → Bool
  | .get | .debug _ => true
  | _ => false

/-- Where a racing reader stalls: before or after the count of an object is incremented. -/
inductive Timing where
  | before
  | after
  deriving DecidableEq

/-- A call that is made beside others: what it asks of the cell, and its arguments. -/
structure Request where
  verb : Verb
  expected : Arg
  new : Arg

inductive Operation where
  | malformed
  | alloc (object : Option String) (value : Option Payload) (mutability : Option Mutability)
      (refs : List (Option String)) (script : List Operation)
  | clone (handle target : Option String)
  | drop (handle : Option String)
  | freeze (handle : Option String)
  | info (handle : Option String)
  | mutate (value : Option Payload) (handle : Option String)
  | sameObject (left right : Option String)
  | compare (left right : Option String)
  | hash (handle : Option String)
  | identity (handle : Option String)
  | debug (handle : Option String) (layout : Option Layout)
  /-- The layout is missing, unknown or known. -/
  | display (handle : Option String) (layout : Option (Option Layout))
  | intoRaw (raw handle : Option String)
  | fromRaw (target raw : Option String)
  | check (handle : Arg) (guard : GuardArg)
  | ensure (handle : Arg) (guard : GuardArg)
  | compareErrors (left right : Option String)
  /-- The kind is missing, unknown or known. -/
  | newCell (cell : Option String) (guard : GuardArg) (value : Arg)
      (kind : Option (Option CellKind)) (origin : Option Origin) (source : Option String)
  | dropCell (cell : Option String)
  | intoInner (cell : Option String) (target : Option String)
  | freezeCell (cell : Option String)
  | onCell (cell : Option String) (verb : Verb) (new expected : Arg) (target : Option String)
  | rounds (count : Option Nat) (body : Option (List Operation))
  | race (cell : Option String) (timing : Option Timing) (reader : Option Request)
      (script : Option (List Operation)) (target : Option String)
  | stress (cell : Option String) (rounds : Option Nat)
      (threads : Option (List (Option (List (Option Request))))) (counted : Bool)

namespace Operation

/-- Operations that start other operations, which a racing thread must not do. -/
def startsOthers : Operation → Bool
  | .rounds .. | .race .. | .stress .. => true
  | _ => false

/-- No operation is repeated more often than this. -/
def roundLimit : Nat := 100000

/-- More steps than a call on a cell and what comes after it can take. -/
def callWeight : Nat := 64

mutual

/-- A bound on the number of steps that an operation can take, the destruction of the objects that
it allocates included. -/
def weight : Operation → Nat
  | .alloc _ _ _ refs script => 2 * callWeight + callWeight * refs.length + weightAll script
  | .rounds (some count) (some body) => callWeight + min count roundLimit * (1 + weightAll body)
  | .race _ _ _ (some script) _ =>
      callWeight * (script.length + 2) + weightAll script
  | .stress _ (some count) (some threads) _ =>
      2 * callWeight +
        (threads.map fun thread => 1 + count * (1 + callWeight * (thread.getD []).length)).sum
  | _ => callWeight

def weightAll : List Operation → Nat
  | [] => 0
  | op :: ops => weight op + weightAll ops

end

end Operation

end SharedCell
