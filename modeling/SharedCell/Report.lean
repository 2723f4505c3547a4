import SharedCell.Report.Event

/-!
# Reports

What is reported of each operation and of the end of a session: the reply, what could be seen
afterwards, and what happened meanwhile, as far as it does not depend on how fast threads are.
-/

namespace SharedCell

variable {β : Type} [Resident β]

namespace World

def destroyedNames (world : World β) : List Document :=
  world.destroyed.map world.objectName

def nonempty (key : String) (items : List Document) : List (String × Document) :=
  if items.isEmpty then [] else [(key, .list items)]

/-- The report of an operation. -/
def reportStep (world : World β) (op : Operation) (reply : Reply) : Document :=
  let seen := world.snapshot
  let stress := match op with
    | .stress .. => true
    | _ => false
  let tallies := if (Resident.offer β).tallies && !stress then
      [("acq", Document.int (world.events.countP Event.isAcquired)),
        ("rel", .int (world.events.countP Event.isReleased))]
    else []
  .object (
    [("r", reply.document world), ("c", seen.countsDocument), ("v", seen.cellsDocument world)] ++
    tallies ++
    nonempty "d" world.destroyedNames ++
    nonempty "g" (world.events.filterMap fun event => event.asked?.map world.objectName) ++
    nonempty "e" ((world.events.filter (!·.isTimed)).filterMap (·.trace? world)) ++
    nonempty "h" (world.told.reverse.map fun (owner, reply) =>
      .list [world.objectName owner, reply.document world]))

/-- The report of the end of a session. -/
def reportEnd (world : World β) (totals : Totals) : Document :=
  let sums := if world.stressed then [] else
    [("acquired", Document.int totals.acquired), ("released", .int totals.released)]
  let balance : Int := world.objects.size + totals.acquired - totals.released
  .object (
    [("c", world.snapshot.countsDocument),
      ("d", .list world.destroyedNames)] ++
    (if (Resident.offer β).tallies then
      sums ++ [("balance", .int balance), ("violations", .int totals.violations)]
    else []))

end World

end SharedCell
