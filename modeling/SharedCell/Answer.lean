import SharedCell.Document.Json
import SharedCell.Heap.Flagged
import SharedCell.Heap.Staged
import SharedCell.Operation.Reader
import SharedCell.Report
import SharedCell.Session

/-!
# Answers to requests

A request names a heap and lists operations.  Its answer reports a session that performs them.
-/

namespace SharedCell

namespace Session

/-- Performs operations in turn and reports each of them; the reports are in reverse. -/
def performAll {β : Type} [Resident β] (world : World β) (totals : Totals)
    (reports : List Document) : List Operation → World β × Totals × List Document
  | [] => (world, totals, reports)
  | op :: ops =>
      let (world, reply) := world.clearLog.perform op
      performAll world (totals.add world.events) (world.reportStep op reply :: reports)
        ops

/-- The answer to a session that starts with an empty world. -/
def answer (β : Type) [Resident β] (ops : List Operation) : Document :=
  let (world, totals, reports) := performAll ({} : World β) {} [] ops
  let ended := world.clearLog.tearDown
  let totals := totals.add ended.events
  .object [("steps", .list reports.reverse), ("final", ended.reportEnd totals)]

end Session

/-- The answer to a request, or nothing if it names no heap or lists no operations. -/
def answer? (request : Document) : Option Document :=
  match request.text? "heap", request.items? "ops" with
  | some "managed", some ops => some (Session.answer Staged (ops.map Operation.ofDocument))
  | some "tracked", some ops => some (Session.answer Flagged (ops.map Operation.ofDocument))
  | _, _ => none

def answer (request : String) : String :=
  (((Document.ofJson? request).bind answer?).getD
    (.object [("error", .text "bad_input")])).toJson

end SharedCell
