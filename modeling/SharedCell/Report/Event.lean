import SharedCell.Report.Reply

/-!
# Reports of events

What of the events is traced, and what is counted over a whole session.
-/

namespace SharedCell

variable {β : Type} [Resident β]

namespace Event

def isAcquired : Event → Bool
  | .acquired .. => true
  | _ => false

def isReleased : Event → Bool
  | .released .. => true
  | _ => false

/-- A unit was acquired on, or taken from, an object that had none. -/
def isViolation : Event → Bool
  | .acquired _ count | .released _ count => count ≤ 0
  | _ => false

def asked? : Event → Option ObjectId
  | .asked obj => some obj
  | _ => none

/-- Whether an event depends on how fast threads are, as the waits of replacements do. -/
def isTimed : Event → Bool
  | .waited .. => true
  | _ => false

/-- The trace of an event, if it leaves one. -/
def trace? (world : World β) : Event → Option Document
  | .rejected obj => some <| .object [
      ("level", .text "DEBUG"), ("message", .text "rejected publication of a mutable object"),
      ("type_name", .text (Resident.typeName β)), ("address", .text (world.addressName obj))]
  | .retried observed current attempt => some <| .object [
      ("level", .text "TRACE"),
      ("message", .text "slot changed while acquiring, retrying read"),
      ("observed", .int observed), ("current", .int current), ("attempt", .int attempt.toNat)]
  | .waited version rounds => some <| .object [
      ("level", .text "TRACE"), ("message", .text "waited for readers of displaced value"),
      ("version", .int version), ("rounds", .int rounds.toNat)]
  | _ => none

end Event

/-- Calls counted over a whole session. -/
structure Totals where
  acquired : Nat := 0
  released : Nat := 0
  violations : Nat := 0

namespace Totals

def add (totals : Totals) (events : List Event) : Totals where
  acquired := totals.acquired + events.countP Event.isAcquired
  released := totals.released + events.countP Event.isReleased
  violations := totals.violations + events.countP Event.isViolation

end Totals

end SharedCell
