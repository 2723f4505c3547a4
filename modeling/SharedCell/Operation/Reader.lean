import SharedCell.Document
import SharedCell.Operation

/-!
# Reading operations

What the fields of a document ask for.  A name that no operation has and a field of the wrong type
are read as malformed; nothing is refused here.
-/

namespace SharedCell

open Text

namespace Payload

mutual

/-- The payload that a document describes.  Numbers must be signed words of 64 bits, and objects are
no payloads. -/
def ofDocument? : Document → Option Payload
  | .null => some .null
  | .bool value => some (.bool value)
  | .int value => if value < 2 ^ 63 then some (.int value) else none
  | .text value => some (.text value)
  | .list items => (ofDocuments? items).map .list
  | .number | .object _ => none

def ofDocuments? : List Document → Option (List Payload)
  | [] => some []
  | doc :: docs =>
      match ofDocument? doc, ofDocuments? docs with
      | some item, some items => some (item :: items)
      | _, _ => none

end

end Payload

namespace Arg

def ofField (doc : Document) (key : String) : Arg :=
  match doc.field? key with
  | none | some .null => .empty
  | some (.text name) => .named name
  | some _ => .malformed

end Arg

namespace GuardArg

def ofName (name : String) : GuardArg :=
  match Guard.named? name with
  | some guard => .given guard
  | none => .malformed

/-- The guard of a new cell. -/
def ofCell (doc : Document) : GuardArg :=
  match doc.field? "guard" with
  | none | some .null => .absent
  | some (.text name) => ofName name
  | some _ => .malformed

/-- The guard of a check, which is the standard one unless a name is given. -/
def ofCheck (doc : Document) : GuardArg :=
  match doc.text? "guard" with
  | some name => ofName name
  | none => .absent

end GuardArg

namespace CellKind

def named? : String → Option CellKind
  | "atomic" => some .atomic
  | "freezable" => some .freezable
  | "slot" => some .slot
  | _ => none

end CellKind

namespace Origin

def named? : String → Option Origin
  | "value" => some .value
  | "empty" => some .empty
  | "default" => some .default
  | "move" => some .moved
  | _ => none

end Origin

namespace Timing

def named? : String → Option Timing
  | "before" => some .before
  | "after" => some .after
  | _ => none

end Timing

namespace Verb

def named (doc : Document) : String → Verb
  | "get" => .get
  | "set" => .set
  | "replace" => .replace
  | "take" => .take
  | "cas" => .compareAndSwap
  | "cset" => .compareAndSet
  | "version" => .version
  | "guard" => .guard
  | "clone_cell" => .cloneCell (doc.text? "to_cell")
  | "debug" => .debug ((doc.text? "fmt").bind Layout.debugNamed?)
  | "snapshot" => .snapshot
  | "swap" => .swap
  | "swap_if" => .swapIf
  | "assign" => .assign
  | _ => .other

/-- What a racing reader is asked for; it has a format and a name for its copy by default. -/
def ofReader (doc : Document) (name : String) : Verb :=
  match named doc name with
  | .cloneCell copy => .cloneCell (some (copy.getD "copy"))
  | .debug _ => .debug (Layout.debugNamed? ((doc.text? "fmt").getD "plain"))
  | verb => verb

/-- What a stress run is asked for. -/
def ofStress : String → Verb
  | "set" => .set
  | "replace" => .replace
  | "take" => .take
  | "cset" => .compareAndSet
  | "cas" => .compareAndSwap
  | "clone" => .cloneCell none
  | _ => .get

end Verb

namespace Request

def ofDocument? (verb : String → Verb) (doc : Document) : Option Request :=
  (doc.text? "op").map fun name =>
    { verb := verb name, expected := .ofField doc "expected", new := .ofField doc "new" }

/-- The requests of the threads of a stress run. -/
def threads? (doc : Document) : Option (List (Option (List (Option Request)))) :=
  (doc.items? "threads").map fun threads => threads.map fun thread =>
    match thread with
    | .list ops => some (ops.map (ofDocument? Verb.ofStress))
    | _ => none

end Request

namespace Operation

/-- An operation on a cell that exists. -/
def ofCellOp (doc : Document) (name : String) : Operation :=
  let cell := doc.text? "cell"
  match name with
  | "drop_cell" => .dropCell cell
  | "into_inner" => .intoInner cell (doc.text? "to")
  | "freeze_cell" => .freezeCell cell
  | _ =>
      .onCell cell (Verb.named doc name) (.ofField doc "new") (.ofField doc "expected")
        (doc.text? "to")

def ofPlainOp (doc : Document) (name : String) : Operation :=
  let handle := doc.text? "h"
  let left := doc.text? "a"
  let right := doc.text? "b"
  match name with
  | "clone" | "retain" => .clone handle (doc.text? "to")
  | "drop" => .drop handle
  | "freeze" => .freeze handle
  | "info" => .info handle
  | "get_mut" => .mutate ((doc.field? "value").bind Payload.ofDocument?) handle
  | "ptr_eq" => .sameObject left right
  | "compare" => .compare left right
  | "hash" => .hash handle
  | "ident" => .identity handle
  | "debug" => .debug handle ((doc.text? "fmt").bind Layout.debugNamed?)
  | "display" => .display handle ((doc.text? "fmt").map Layout.displayNamed?)
  | "into_raw" => .intoRaw (doc.text? "raw") handle
  | "from_raw" => .fromRaw (doc.text? "to") (doc.text? "raw")
  | "check" => .check (.ofField doc "h") (.ofCheck doc)
  | "ensure" => .ensure (.ofField doc "h") (.ofCheck doc)
  | "error_cmp" => .compareErrors left right
  | _ => .malformed

def ofNew (doc : Document) : Operation :=
  .newCell (doc.text? "cell") (.ofCell doc) (.ofField doc "value")
    ((doc.text? "kind").map CellKind.named?)
    (if (doc.field? "init").isSome then (doc.text? "init").bind Origin.named? else some .value)
    (doc.text? "from")

/-- The operation that a document asks for. -/
def ofDocument (doc : Document) : Operation :=
  match doc.text? "op" with
  | none => .malformed
  | some "alloc" =>
      let script := match _ : doc.items? "on_destroy" with
        | some ops => ops.attach.map fun ⟨op, _⟩ => ofDocument op
        | none => []
      .alloc (doc.text? "obj") ((doc.field? "value").elim (some .null) Payload.ofDocument?)
        (match doc.field? "state" with
          | none => some .mutable
          | some _ => (doc.text? "state").bind Mutability.named?)
        (((doc.items? "refs").getD []).map fun ref =>
          match ref with
          | .text name => some name
          | _ => none)
        script
  | some "new" => ofNew doc
  | some "race" =>
      let script := match _ : doc.items? "script" with
        | some ops => some (ops.attach.map fun ⟨op, _⟩ => ofDocument op)
        | none => none
      let reader := doc.field? "reader"
      .race (doc.text? "cell") ((doc.text? "at").bind Timing.named?)
        (reader.bind fun reader => Request.ofDocument? (Verb.ofReader reader) reader) script
        (reader.bind (·.text? "to"))
  | some "stress" =>
      .stress (doc.text? "cell") (doc.nat? "rounds") (Request.threads? doc)
        (match doc.field? "count" with
          | some (.bool counted) => counted
          | _ => false)
  | some "repeat" =>
      let body := match _ : doc.items? "ops" with
        | some ops => some (ops.attach.map fun ⟨op, _⟩ => ofDocument op)
        | none => none
      .rounds (doc.nat? "n") body
  | some name =>
      if (doc.field? "cell").isSome then ofCellOp doc name else ofPlainOp doc name
termination_by sizeOf doc
decreasing_by
  all_goals exact Document.sizeOf_lt_of_mem_items (by assumption) (by assumption)

end Operation

end SharedCell
