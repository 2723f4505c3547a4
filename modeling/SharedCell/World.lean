import SharedCell.Cell
import SharedCell.Reply

/-!
# Worlds

What all threads of a session share: the objects of the heap, the named handles and raw units, the
cells, and the log of what happened since it was last emptied.  Every unit that no operation in
progress owns is owned by a handle, a raw unit, a cell or an object of the world.
-/

namespace SharedCell

structure Object (β : Type) where
  name : String
  body : β
  /-- The objects that this one owns a unit on and has not given up. -/
  refs : List ObjectId := []
  /-- What is performed when the object is destroyed. -/
  script : List Operation := []
  destroyed : Bool := false

/-- The owner of a unit.  A handle that is overwritten while operations use it loses its name, and
its unit is released when the last of them ends. -/
structure Holder where
  id : Nat
  name : Option String
  unit : ObjectId
  /-- How many operations in progress use the handle. -/
  users : Nat := 0
  /-- Whether the operation that uses the handle allows for no other. -/
  exclusive : Bool := false

/-- What happens to objects and guards.  The count is the one found before. -/
inductive Event where
  | acquired (obj : ObjectId) (count : Int)
  | released (obj : ObjectId) (count : Int)
  | destroyed (obj : ObjectId)
  | asked (obj : ObjectId)
  | rejected (obj : ObjectId)
  | retried (observed current : Nat) (attempt : UInt32)
  /-- A replacement waited for readers of the content that it displaced from this version. -/
  | waited (version : Nat) (rounds : UInt32)

namespace Event

def destroyed? : Event → Option ObjectId
  | .destroyed obj => some obj
  | _ => none

end Event

structure World (β : Type) where
  objects : Array (Object β) := #[]
  holders : List Holder := []
  nextHolder : Nat := 0
  raws : List (String × ObjectId) := []
  cells : List (String × Cell) := []
  /-- What happened and by which thread, the last event first. -/
  log : List (Nat × Event) := []
  /-- The replies to the scripts of destroyed objects, the last one to complete first. -/
  told : List (ObjectId × Reply) := []
  /-- Whether objects perform their scripts when they are destroyed. -/
  scripts : Bool := true
  /-- Whether questions to guards, rejections, retries and waits are logged. -/
  traced : Bool := true
  /-- Whether there was a stress run, whose calls are not tallied. -/
  stressed : Bool := false

namespace World

variable {β : Type}

/-! ## Objects -/

def object? (world : World β) (obj : ObjectId) : Option (Object β) :=
  world.objects[obj]?

def findObject? (world : World β) (name : String) : Option ObjectId :=
  world.objects.findIdx? (·.name == name)

def modifyObject (world : World β) (obj : ObjectId) (change : Object β → Object β) : World β :=
  { world with objects := world.objects.modify obj change }

def addObject (world : World β) (object : Object β) : World β × ObjectId :=
  ({ world with objects := world.objects.push object }, world.objects.size)

def record (world : World β) (thread : Nat) (event : Event) : World β :=
  { world with log := (thread, event) :: world.log }

def trace (world : World β) (thread : Nat) (event : Event) : World β :=
  if world.traced then world.record thread event else world

section Resident

variable [Resident β]

def facts (world : World β) (obj : ObjectId) : Facts :=
  match world.object? obj with
  | some object => Resident.facts object.body
  | none => { frozen := false, permanent := false, payload := .null }

def shape (world : World β) (layout : Text.Layout) (obj : ObjectId) : Text.Shape :=
  match world.object? obj with
  | some object => Resident.shape layout object.body
  | none => .leaf ""

def count (world : World β) (obj : ObjectId) : Int :=
  match world.object? obj with
  | some object => Resident.count object.body
  | none => 0

def acquire (world : World β) (thread : Nat) (obj : ObjectId) : World β :=
  (world.modifyObject obj fun object =>
    { object with body := Counted.acquire object.body }).record thread
      (.acquired obj (world.count obj))

/-- Whether releasing a unit would destroy the object. -/
def isLast (world : World β) (obj : ObjectId) : Bool :=
  match world.object? obj with
  | some object => (Counted.release object.body).2
  | none => false

/-- Takes a unit from an object.  The object counts as destroyed from the moment on that its last
unit is gone. -/
def release (world : World β) (thread : Nat) (obj : ObjectId) : World β :=
  let last := world.isLast obj
  let released := (world.modifyObject obj fun object =>
    { object with
      body := (Counted.release object.body).1
      destroyed := object.destroyed || last }).record thread (.released obj (world.count obj))
  if last then released.record thread (.destroyed obj) else released

/-- Reports what a guard was asked about, if the guard's questions are reported at all. -/
def ask (world : World β) (thread : Nat) (guard : Guard) (obj : ObjectId) : World β :=
  if guard.reported then world.trace thread (.asked obj) else world

end Resident

/-! ## The log -/

/-- The logged events, the first one first. -/
def events (world : World β) : List Event :=
  world.log.reverse.map (·.2)

def destroyed (world : World β) : List ObjectId :=
  world.events.filterMap Event.destroyed?

/-- Brings what threads did side by side into one order: first the destructions, in the order of
names, then what the first thread did, then what the second one did. -/
def join (world : World β) : World β :=
  let name (obj : ObjectId) : String := ((world.object? obj).map (·.name)).getD ""
  let destroyed := world.destroyed.mergeSort fun left right => decide (name left ≤ name right)
  let others := world.log.reverse.filter (·.2.destroyed?.isNone)
  let (first, second) := others.partition (·.1 = 0)
  let events := destroyed.map .destroyed ++ (first ++ second).map (·.2)
  { world with log := (events.map (0, ·)).reverse }

/-! ## Handles and raw units -/

def holder? (world : World β) (name : String) : Option Holder :=
  world.holders.find? (·.name == some name)

def modifyHolder (world : World β) (id : Nat) (change : Holder → Holder) : World β :=
  { world with
    holders := world.holders.map fun holder => if holder.id = id then change holder else holder }

def eraseHolder (world : World β) (id : Nat) : World β :=
  { world with holders := world.holders.filter (·.id != id) }

/-- Puts a unit under a name that no handle has. -/
def addHolder (world : World β) (name : String) (unit : ObjectId) : World β :=
  { world with
    holders := { id := world.nextHolder, name := some name, unit } :: world.holders
    nextHolder := world.nextHolder + 1 }

/-- Puts a unit under a name, and yields the unit that is to be released for it. -/
def store (world : World β) (name : String) (unit : ObjectId) : World β × Option ObjectId :=
  match world.holder? name with
  | none => (world.addHolder name unit, none)
  | some old =>
      if old.users = 0 then ((world.eraseHolder old.id).addHolder name unit, some old.unit)
      else ((world.modifyHolder old.id ({ · with name := none })).addHolder name unit, none)

/-- Ends one use of a handle, and yields the unit that is to be released if the handle was
overwritten meanwhile and nothing else uses it. -/
def endUse (world : World β) (id : Nat) : World β × Option ObjectId :=
  match world.holders.find? (·.id = id) with
  | none => (world, none)
  | some holder =>
      if holder.users ≤ 1 && holder.name.isNone then (world.eraseHolder id, some holder.unit)
      else
        (world.modifyHolder id fun holder =>
          { holder with users := holder.users - 1, exclusive := false }, none)

def raw? (world : World β) (name : String) : Option ObjectId :=
  world.raws.lookup name

def addRaw (world : World β) (name : String) (unit : ObjectId) : World β :=
  { world with raws := (name, unit) :: world.raws }

def eraseRaw (world : World β) (name : String) : World β :=
  { world with raws := world.raws.filter (·.1 != name) }

/-! ## Cells -/

def cell? (world : World β) (name : String) : Option Cell :=
  world.cells.lookup name

def addCell (world : World β) (name : String) (cell : Cell) : World β :=
  { world with cells := (name, cell) :: world.cells }

def eraseCell (world : World β) (name : String) : World β :=
  { world with cells := world.cells.filter (·.1 != name) }

def modifyCell (world : World β) (name : String) (change : Cell → Cell) : World β :=
  { world with
    cells := world.cells.map fun (other, cell) =>
      if other = name then (other, change cell) else (other, cell) }

def useCell (world : World β) (name : String) (thread : Nat) (looks : Bool) : World β :=
  world.modifyCell name (·.use thread looks)

def leaveCell (world : World β) (name : String) (thread : Nat) : World β :=
  world.modifyCell name (·.leave thread)

/-! ## Observation -/

def snapshot [Resident β] (world : World β) : Snapshot where
  counts := world.objects.toList.map fun object =>
    (object.name, if object.destroyed then none else some (Resident.count object.body))
  cells := world.cells.map fun (name, cell) => (name, cell.view)

end World

end SharedCell
