import SharedCell.Document
import SharedCell.World

/-!
# Reports of replies

Replies as documents.  Objects appear under their names.
-/

namespace SharedCell

variable {β : Type} [Resident β]

namespace Payload

mutual

def document : Payload → Document
  | .null => .null
  | .bool value => .bool value
  | .int value => .int value
  | .text value => .text value
  | .list items => .list (documents items)

def documents : List Payload → List Document
  | [] => []
  | item :: items => document item :: documents items

end

end Payload

namespace Fault

def kind : Fault → String
  | .malformed => "bad_op"
  | .badValue => "bad_value"
  | .unknownHandle => "unknown_handle"
  | .unknownCell => "unknown_cell"
  | .unknownObject => "unknown_object"
  | .destroyed => "dead"
  | .nameTaken => "exists"
  | .unsupported => "unsupported"
  | .busy => "busy"
  | .unshareable _ => "InvalidMutabilityError"
  | .stuck => "stuck"

/-- The message of the rejection of an object of a type. -/
def message (typeName : String) : String :=
  "cannot share `" ++ typeName ++ "` object at <addr>: it is neither frozen nor permanent"

/-- The debug text of the rejection of an object of a type. -/
def debugText (typeName : String) : String :=
  (Text.Shape.record "InvalidMutabilityError"
    [("type_name", .leaf (Text.quoted typeName)), ("address", .leaf "<addr>")]).inline

end Fault

namespace World

def objectName (world : World β) (obj : ObjectId) : Document :=
  .text (((world.object? obj).map (·.name)).getD "?")

/-- The name that an address is reported as; the address of a destroyed object names nothing. -/
def addressName (world : World β) (obj : ObjectId) : String :=
  match world.object? obj with
  | some object => if object.destroyed then "?" else object.name
  | none => "?"

def unitName (world : World β) : Option ObjectId → Document
  | some obj => world.objectName obj
  | none => .null

end World

namespace Fault

def document (world : World β) (fault : Fault) : Document :=
  match fault with
  | .unshareable obj =>
      .object [
        ("error", .text fault.kind), ("object", world.objectName obj),
        ("type_name", .text (Resident.typeName β)),
        ("message", .text (message (Resident.typeName β)))]
  | _ => .object [("error", .text fault.kind)]

end Fault

namespace Snapshot

def countsDocument (snapshot : Snapshot) : Document :=
  .object (snapshot.counts.map fun (name, count) =>
    (name, match count with
      | some count => .int count
      | none => .text "x"))

def cellsDocument (world : World β) (snapshot : Snapshot) : Document :=
  .object (snapshot.cells.map fun (name, view) =>
    (name, match view with
      | .out => .null
      | .content version content =>
          .list [(version.map fun version => Document.int version).getD .null,
            world.unitName content]))

end Snapshot

namespace Reply

def comparisonDocument (order : Option Ordering) : Document :=
  let sign : Document := match order with
    | some .lt => .int (-1)
    | some .eq => .int 0
    | some .gt => .int 1
    | none => .null
  .object [
    ("eq", .bool (order == some .eq)), ("ne", .bool (order != some .eq)), ("cmp", sign),
    ("lt", .bool (order == some .lt)), ("le", .bool (order == some .lt || order == some .eq)),
    ("gt", .bool (order == some .gt)), ("ge", .bool (order == some .gt || order == some .eq))]

mutual

def document (world : World β) : Reply → Document
  | .ok => .text "ok"
  | .null => .null
  | .flag value => .bool value
  | .version seen => .int seen
  | .text shown => .text shown
  | .unit obj => world.unitName obj
  | .snapshot owned seen => .object [("version", .int seen), ("unit", world.unitName owned)]
  | .swapped value owned => .object [("swapped", .bool value), ("unit", world.unitName owned)]
  | .info obj facts count =>
      .object [
        ("id", world.objectName obj), ("value", facts.payload.document),
        ("frozen", .bool facts.frozen), ("permanent", .bool facts.permanent), ("count", .int count)]
  | .comparison order => comparisonDocument order
  | .identity same =>
      .object [
        ("borrow", .bool same), ("as_ref", .bool same), ("deref", .bool same),
        ("pointer", .bool same)]
  | .errors equal cloneEqual =>
      .object [
        ("eq", .bool equal), ("clone_eq", .bool cloneEqual),
        ("debug", .text (Fault.debugText (Resident.typeName β)))]
  | .all replies => .list (documents world replies)
  | .race reader stalls =>
      .object [("reader", document world reader), ("stalls", .list (stallDocuments world stalls))]
  | .stress rejected versionsMatch replaced =>
      .object ([("errors", .int rejected), ("versions_match", .bool versionsMatch)] ++
        (replaced.map fun replaced => ("replaced", Document.int replaced)).toList)
  | .fault cause => cause.document world

def documents (world : World β) : List Reply → List Document
  | [] => []
  | reply :: replies => document world reply :: documents world replies

def stallDocuments (world : World β) : List (Snapshot × Reply) → List Document
  | [] => []
  | (seen, reply) :: stalls =>
      .object [
        ("c", seen.countsDocument), ("v", seen.cellsDocument world), ("r", document world reply)] ::
        stallDocuments world stalls

end

end Reply

end SharedCell
