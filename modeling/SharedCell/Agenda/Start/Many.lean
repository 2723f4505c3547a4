import SharedCell.Agenda.Start.Cells

/-!
# Starting operations that start others

The first steps of repetitions, races and stress runs.
-/

namespace SharedCell.Operation

open Attempt Text

variable {β : Type} [Resident β]

def startRounds (count : Option Nat) (body : Option (List Operation)) : Attempt β Frame := do
  let count := min (← field count) roundLimit
  let body ← field body
  if count = 0 then answer .null else pure (.rounds (count - 1) body body [])

/-- What a racing reader can be asked for.  A text in no known layout is asked for in vain. -/
def racing (kind : CellKind) : Verb → Bool
  | .get => true
  | .compareAndSwap | .cloneCell _ | .debug _ => kind = .atomic
  | .swap | .snapshot => kind = .slot
  | _ => false

def startRace (thread : Nat) (cell : Option String) (timing : Option Timing)
    (reader : Option Request) (script : Option (List Operation)) (target : Option String) :
    Attempt β Frame := do
  let (name, cell) ← Attempt.cell cell
  require ((Resident.offer β).tallies && cell.kind != .freezable) .unsupported
  let timing ← field timing
  let reader ← field reader
  let script ← field script
  let holder ← arg reader.expected
  let new ← arg reader.new
  require (!script.any startsOthers) .malformed
  let copy : Option String ← match reader.verb with
    | .cloneCell copy => some <$> newCellName copy
    | _ => pure none
  let action := action? cell.kind (holder.map (·.unit)) (new.map (·.unit)) reader.verb
  match racing cell.kind reader.verb, action with
  | true, some action =>
      let call ← makeCall thread name cell action target copy [new, holder]
      modify ({ · with scripts := false })
      pure (.race { timing, own := new.map (·.unit), reader := some call, script })
  | true, none => do
      modify World.join
      answer (.race .null [])
  | false, _ => do
      modify World.join
      answer (.race (.fault .unsupported) [])

/-- The actions of one thread of a stress run, and the handles that they use.  What is not an
action of its own is a get. -/
def stressActions : List (Option Request) → Attempt β (List Action × List (Option Holder))
  | [] => pure ([], [])
  | request :: requests => do
      let request ← field request
      let expected ← arg request.expected
      let new ← arg request.new
      let unit (holder : Option Holder) := holder.map (·.unit)
      let action : Action := match request.verb with
        | .set => .set (unit new)
        | .replace => .replace (unit new)
        | .take => .take
        | .compareAndSet => .compareAndSet (unit expected) (unit new)
        | .compareAndSwap => .compareAndSwap (unit expected) (unit new)
        | .cloneCell _ => .copy
        | _ => .get
      let (actions, holders) ← stressActions requests
      pure (action :: actions, expected :: new :: holders)

def stressThreads (count : Nat) : List (Option (List (Option Request))) →
    Attempt β (List (Nat × List Action) × List (Option Holder))
  | [] => pure ([], [])
  | thread :: threads => do
      let (actions, holders) ← stressActions (← field thread)
      let (others, otherHolders) ← stressThreads count threads
      pure ((count, actions) :: others, holders ++ otherHolders)

def startStress (thread : Nat) (cell : Option String) (count : Option Nat)
    (threads : Option (List (Option (List (Option Request))))) (counted : Bool) :
    Attempt β Frame := do
  let (name, cell) ← Attempt.cell cell
  require (cell.kind = .atomic && !cell.guard.reported) .unsupported
  let count ← field count
  let threads ← field threads
  let (threads, holders) ← stressThreads count threads
  let ids ← use holders
  modify fun world =>
    { world.useCell name thread false with scripts := false, traced := false, stressed := true }
  let base := cell.slot.version
  pure (.stress { cell := name, base, threads, counted, holders := ids })

end SharedCell.Operation
