import SharedCell.Agenda.Start

/-!
# Steps of a thread

One step of a thread acts on the top of its agenda.  A call on a cell makes one atomic access; an
operation whose reply is settled does one of its remaining chores or hands the reply to the frame
below; a destroyed object performs the next operation of its script, and gives up its units one by
one once the script has ended.  A thread that waits for a lock makes no step, and one that waits for
pins does nothing but look at them.
-/

namespace SharedCell

variable {β : Type} [Resident β]

namespace World

/-- Releases a unit, and yields the frames of the object's destruction if it was the last one. -/
def letGo (world : World β) (thread : Nat) (unit : ObjectId) : World β × List Frame :=
  let opened := match world.isLast unit, world.object? unit with
    | true, some object => [if world.scripts then .script unit object.script else .surrender unit]
    | _, _ => []
  (world.release thread unit, opened)

def letGo? (world : World β) (thread : Nat) (unit : Option ObjectId) : World β × List Frame :=
  match unit with
  | some unit => world.letGo thread unit
  | none => (world, [])

/-- Takes the next reference from an object that gives up its units. -/
def takeRef (world : World β) (owner : ObjectId) : Option (World β × ObjectId) :=
  match (world.object? owner).map (·.refs) with
  | some (ref :: refs) => some (world.modifyObject owner ({ · with refs }), ref)
  | _ => none

end World

namespace Chore

def perform (thread : Nat) (world : World β) : Chore → World β × List Frame
  | .release unit => world.letGo thread unit
  | .store name unit =>
      let (world, old) := world.store name unit
      world.letGo? thread old
  | .endUse holder =>
      let (world, unit) := world.endUse holder
      world.letGo? thread unit
  | .leaveCell cell => (world.leaveCell cell thread, [])
  | .join => (world.join, [])
  | .resume => ({ world with scripts := true, traced := true }, [])

end Chore

namespace Call

/-- The reply to a call that has its outcome, and what becomes of the units that it yields.  A
copied content goes into a cell of its own, in the place of a cell that got the name meanwhile,
unless that one is in use. -/
def settle (world : World β) (call : Call) (outcome : Outcome) : World β × List Chore × Reply :=
  match call.action, outcome, call.copy with
  | .copy, .unit content, some name =>
      let guard := ((world.cell? call.cell).map (·.guard)).getD .standard
      let copy : Cell := { kind := .atomic, guard, slot := { content } }
      match world.cell? name with
      | none => (world.addCell name copy, [], .ok)
      | some displaced =>
          if displaced.idle then
            ((world.eraseCell name).addCell name copy,
              Operation.delivery none displaced.slot.content, .ok)
          else (world, Operation.delivery none content, .fault .busy)
  | .freeze, .done, _ => (world.modifyCell call.cell ({ · with kind := .atomic }), [], .ok)
  | _, _, _ =>
      (world, outcome.units.flatMap fun unit => Operation.delivery call.target (some unit),
        outcome.reply)

/-- What remains to be done for a call that has its outcome.  The cell is in use to the end. -/
def conclude (world : World β) (call : Call) (outcome : Outcome) : World β × Frame :=
  let (world, chores, reply) := call.settle world outcome
  (world, .tidy (chores ++ call.holders.map .endUse ++ [.leaveCell call.cell]) reply)

def apply (world : World β) (thread : Nat) (guard : Guard) : Effect → World β × List Frame
  | .acquire obj => (world.acquire thread obj, [])
  | .release obj => world.letGo thread obj
  | .ask obj => (world.ask thread guard obj, [])
  | .reject obj => (world.trace thread (.rejected obj), [])
  | .retry observed current attempt =>
      (world.trace thread (.retried observed current attempt), [])
  | .wait version rounds => (world.trace thread (.waited version rounds), [])

/-- Whether the next step of a call only finds that it still has to wait for pins. -/
def polls (world : World β) (call : Call) : Bool :=
  (world.cell? call.cell).any (call.stage.polls ·.slot)

/-- The next step of a call, and what is to be done before the one after it. -/
def step (world : World β) (thread : Nat) (call : Call) : Option (World β × List Frame) :=
  match call.stage with
  | .finished outcome =>
      let (world, frame) := conclude world call outcome
      some (world, [frame])
  | stage => do
      let cell ← world.cell? call.cell
      let (slot, stage, effect) ←
        stage.step cell.kind cell.guard call.action world.facts world.shape cell.slot
      let world := world.modifyCell call.cell ({ · with slot })
      let (world, opened) := match effect with
        | some effect => apply world thread cell.guard effect
        | none => (world, [])
      pure (world, opened ++ [.call { call with stage }])

end Call

namespace Stress

/-- Counts the reply to the running action.  A comparison replaced the content if the unit that it
yields is on the object that was expected. -/
def count (stress : Stress) (reply : Reply) : Stress :=
  let replaced : Bool := match stress.running, reply with
    | some (.set _), .ok => true
    | some (.replace _), .unit _ | some .take, .unit _ => true
    | some (.compareAndSet ..), .flag replaced => replaced
    | some (.compareAndSwap expected _), .unit unit => unit == expected
    | _, _ => false
  match reply with
  | .fault _ => { stress with running := none, errors := stress.errors + 1 }
  | _ => { stress with running := none, replaced := stress.replaced + if replaced then 1 else 0 }

/-- What is performed next: the pending actions of a thread, then those of its next round, then
those of the next thread.  Once all have ended the cell is emptied, still without scripts. -/
def step (world : World β) (thread : Nat) (stress : Stress) : World β × List Frame :=
  let perform (action : Action) (stress : Stress) : World β × List Frame :=
    (world.useCell stress.cell thread action.looks,
      [.call { cell := stress.cell, action, stage := action.opening .atomic }, .stress stress])
  match stress.versionsMatch, stress.pending, stress.threads with
  | some versionsMatch, _, _ =>
      let reply := .stress stress.errors versionsMatch
        (if stress.counted then some stress.replaced else none)
      let ending := .resume :: stress.holders.map .endUse
      match stress.counted, world.cell? stress.cell with
      | false, some cell =>
          (world.eraseCell stress.cell,
            [.tidy (Operation.delivery none cell.slot.content ++ ending) reply])
      | _, _ => (world, [.tidy (.leaveCell stress.cell :: ending) reply])
  | none, action :: pending, _ => perform action { stress with pending, running := some action }
  | none, [], (0, _) :: threads => (world.join, [.stress { stress with threads }])
  | none, [], (left + 1, actions) :: threads =>
      (world, [.stress { stress with pending := actions, threads := (left, actions) :: threads }])
  | none, [], [] =>
      let version := ((world.cell? stress.cell).map (·.slot.version)).getD 0
      perform .take
        { stress with versionsMatch := some (version == stress.base + stress.replaced) }

end Stress

namespace Race

def stall (race : Race) (seen : Snapshot) (script : List Operation) : Race :=
  { race with seen := some seen, script }

/-- Takes the reply of the entry that ended. -/
def receive (race : Race) (reply : Reply) : Race :=
  match race.seen with
  | some seen => { race with seen := none, stalls := (seen, reply) :: race.stalls }
  | none => race

/-- What remains to be done for a race whose reader's call has its outcome.  No scripts are
performed until the units that the call yields are where they go; then the handles are given up. -/
def conclude (world : World β) (race : Race) (call : Call) (outcome : Outcome) : World β × Frame :=
  let (world, chores, reply) := call.settle world outcome
  let ending := .leaveCell call.cell :: .join :: .resume :: call.holders.map .endUse
  (world, .tidy (chores ++ ending) (.race reply race.stalls.reverse))

end Race

namespace Frame

/-- Hands a reply to the frame that was waiting for it. -/
def receive (world : World β) (reply : Reply) : Frame → World β × Frame
  | .script owner ops => ({ world with told := (owner, reply) :: world.told }, .script owner ops)
  | .rounds left body ops replies => (world, .rounds left body ops (reply :: replies))
  | .race contest => (world, .race (contest.receive reply))
  | .stress tally => (world, .stress (tally.count reply))
  | frame => (world, frame)

/-- Whether the next step of a thread only finds that it still has to wait for pins. -/
def polls (world : World β) : List Frame → Bool
  | .call active :: _ => active.polls world
  | _ => false

/-- The next step of a thread.  A race makes no step of its own: it goes on with its reader. -/
def step (thread : Nat) (world : World β) : List Frame → Option (World β × List Frame)
  | [] | [.tidy [] _] | .race _ :: _ => none
  | .tidy [] reply :: frame :: below =>
      let (world, frame) := receive world reply frame
      some (world, frame :: below)
  | .tidy (chore :: chores) reply :: below =>
      let (world, opened) := chore.perform thread world
      some (world, opened ++ .tidy chores reply :: below)
  | .call active :: below =>
      (active.step world thread).map fun (world, frames) => (world, frames ++ below)
  | .mutate holder obj payload stateSeen :: below =>
      let granted := match world.object? obj with
        | some object =>
            if stateSeen then Resident.count object.body == 1 else Resident.isMutable object.body
        | none => false
      if !granted then
        some (world, .tidy [.endUse holder] (.flag false) :: below)
      else if !stateSeen then
        some (world, .mutate holder obj payload true :: below)
      else
        let world := world.modifyObject obj fun object =>
          { object with body := Resident.setPayload object.body payload }
        some (world, .tidy [.endUse holder] (.flag true) :: below)
  | .script owner [] :: below => some (world, .surrender owner :: below)
  | .script owner (op :: ops) :: below =>
      let (world, frame) := op.start thread world
      some (world, frame :: .script owner ops :: below)
  | .surrender owner :: below =>
      match world.takeRef owner with
      | none => some (world, below)
      | some (world, ref) =>
          let (world, opened) := world.letGo thread ref
          some (world, opened ++ .surrender owner :: below)
  | .rounds 0 _ [] replies :: below => some (world, .tidy [] (.all replies.reverse) :: below)
  | .rounds (left + 1) body [] _ :: below => some (world, .rounds left body body [] :: below)
  | .rounds left body (op :: ops) replies :: below =>
      let (world, frame) := op.start thread world
      some (world, frame :: .rounds left body ops replies :: below)
  | .stress tally :: below =>
      let (world, frames) := tally.step world thread
      some (world, frames ++ below)

end Frame

end SharedCell
