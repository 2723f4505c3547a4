/-!
# Payloads

The values that heap objects carry: plain data without identity.  Payloads are partially
ordered.  Two payloads of different types are unordered, and a list takes the verdict of its
first pair of items that are not equal, so that a list can be unordered to another list too.
-/

namespace SharedCell

inductive Payload where
  | null
  | bool (value : Bool)
  | int (value : Int)
  | text (value : String)
  | list (items : List Payload)
  deriving Inhabited

namespace Payload

mutual

/-- The order of two payloads, `none` if they are unordered.  Texts are ordered by code point,
which is also the order of their UTF-8 bytes. -/
def compare? : Payload → Payload → Option Ordering
  | .null, .null => some .eq
  | .bool left, .bool right => some (compare left right)
  | .int left, .int right => some (compare left right)
  | .text left, .text right => some (compare left right)
  | .list left, .list right => compareItems? left right
  | _, _ => none

def compareItems? : List Payload → List Payload → Option Ordering
  | [], [] => some .eq
  | [], _ :: _ => some .lt
  | _ :: _, [] => some .gt
  | left :: lefts, right :: rights =>
      match compare? left right with
      | some .eq => compareItems? lefts rights
      | verdict => verdict

end

/-- Equality of values: a payload is equal to those that it is neither below, nor above, nor
unordered to. -/
def same (left right : Payload) : Bool :=
  compare? left right == some .eq

def isEven : Payload → Bool
  | .int value => value % 2 == 0
  | _ => false

end Payload

end SharedCell
