import SharedCell.Agenda.Step

/-!
# Sessions

A session performs operations one after the other.  While a race is on the agenda there is a second
thread, the reader of the race, and the schedule of the two is fixed: the reader runs until it
stalls or ends; at a stall an entry of the script runs to its end, and the reader makes a step only
when the entry has to wait.
-/

namespace SharedCell

variable {β : Type} [Resident β]

structure Session (β : Type) where
  world : World β
  main : List Frame
  reader : List Frame := []
  /-- Whether the entry for the acquisition that the reader is at has been started. -/
  served : Bool := false

namespace Session

/-- The object on which the reader is about to acquire a unit, or has just acquired one. -/
def stallsAt? (timing : Timing) : List Frame → Option ObjectId
  | .call { stage := .calling (.acquiring _ obj _), .. } :: _ =>
      if timing = .before then some obj else none
  | .call { stage := .calling (.unpinning _ obj _), .. } :: _ =>
      if timing = .after then some obj else none
  | _ => none

def stepReader (session : Session β) : Option (Session β) :=
  (Frame.step 1 session.world session.reader).map fun (world, reader) =>
    { session with world, reader, served := false }

/-- The race on top of the agenda goes on: its reader is started, stalls or makes a step, or the
race ends since the reader's call has its outcome. -/
def stepRace (session : Session β) (race : Race) (below : List Frame) : Option (Session β) :=
  match race.reader, session.reader with
  | some call, _ =>
      let main := .race { race with reader := none } :: below
      some { session with main, reader := [.call call] }
  | none, .call call@{ stage := .finished outcome, .. } :: _ =>
      let (world, frame) := race.conclude session.world call outcome
      some { session with world, main := frame :: below, reader := [] }
  | none, reader =>
      match stallsAt? race.timing reader, race.script, session.served with
      | some obj, entry :: script, false =>
          if race.own = some obj then session.stepReader
          else
            let race := race.stall session.world.snapshot script
            let (world, frame) := entry.start 0 session.world
            some { session with world, main := frame :: .race race :: below, served := true }
      | _, _, _ => session.stepReader

def step (session : Session β) : Option (Session β) :=
  match session.main with
  | .race race :: below => session.stepRace race below
  | main =>
      match Frame.step 0 session.world main with
      | some (world, later) =>
          let stepped := { session with world, main := later }
          some (if Frame.polls session.world main then stepped.stepReader.getD stepped else stepped)
      | none => if (Frame.reply? main).isSome then none else session.stepReader

/-- Makes at most the given number of steps. -/
def run : Nat → Session β → Session β
  | 0, session => session
  | fuel + 1, session =>
      match session.step with
      | some next => run fuel next
      | none => session

end Session

namespace World

/-- A bound on the number of steps that the destruction of all objects can take. -/
def weight (world : World β) : Nat :=
  world.objects.foldl
    (fun total object =>
      total + Operation.callWeight * (1 + object.refs.length) + Operation.weightAll object.script) 0

/-- Performs what a frame leads to, to its end. -/
def complete (world : World β) (fuel : Nat) (frame : Frame) : World β × Reply :=
  let session := Session.run (fuel + world.weight) { world, main := [frame] }
  (session.world, (Frame.reply? session.main).getD (.fault .stuck))

/-- Performs an operation, with everything that is destroyed by it. -/
def perform (world : World β) (op : Operation) : World β × Reply :=
  let (started, frame) := op.start 0 world
  started.complete op.weight frame

/-- The units of all cells, handles and raw units, each group in the order of names. -/
def remainder (world : World β) : List ObjectId :=
  let named (units : List (String × ObjectId)) : List ObjectId :=
    (units.mergeSort fun left right => decide (left.1 ≤ right.1)).map (·.2)
  named (world.cells.filterMap fun (name, cell) => cell.slot.content.map (name, ·)) ++
    named (world.holders.filterMap fun holder => holder.name.map (·, holder.unit)) ++
    named world.raws

/-- Gives up all cells, then all handles, then all raw units, without performing any scripts. -/
def tearDown (world : World β) : World β :=
  let units := world.remainder
  let bare := { world with cells := [], holders := [], raws := [], scripts := false }
  (bare.complete (Operation.callWeight * (1 + units.length)) (.tidy (units.map .release) .ok)).1

/-- Forgets what happened. -/
def clearLog (world : World β) : World β :=
  { world with log := [], told := [] }

end World

end SharedCell
