import SharedCell.Agenda.Attempt

/-!
# Starting operations on objects

The first steps of the operations on objects, handles and raw units, and of those that ask guards.
An operation that fails its checks leaves the world as it was; the one exception is an allocation
that fails while it gathers its references, which gives back those that it has got.
-/

namespace SharedCell.Operation

open Attempt Text

variable {β : Type} [Resident β]

def answer (reply : Reply) : Attempt β Frame :=
  pure (.tidy [] reply)

/-- Where a unit goes that an operation yields. -/
def delivery (target : Option String) (unit : Option ObjectId) : List Chore :=
  match unit, target with
  | some unit, some name => [.store name unit]
  | some unit, none => [.release unit]
  | none, _ => []

/-! ## Handles -/

/-- Acquires a unit for each reference, up to the first one that is not a handle to acquire from. -/
def gather (thread : Nat) : List (Option String) → World β → World β × List ObjectId × Bool
  | [], world => (world, [], true)
  | ref :: refs, world =>
      match (ref.bind world.holder?).filter (!·.exclusive) with
      | none => (world, [], false)
      | some holder =>
          let (world, units, complete) := gather thread refs (world.acquire thread holder.unit)
          (world, holder.unit :: units, complete)

def startAlloc (thread : Nat) (object : Option String) (value : Option Payload)
    (mutability : Option Mutability) (refs : List (Option String)) (script : List Operation) :
    Attempt β Frame := do
  let name ← field object
  let some payload := value | throw .badValue
  let mutability ← field mutability
  require ((← get).findObject? name).isNone .nameTaken
  require ((← get).holder? name).isNone .nameTaken
  let (world, units, complete) := gather thread refs (← get)
  match complete, Resident.make mutability payload with
  | false, _ => do
      set world
      pure (.tidy (units.map .release) (.fault .unknownHandle))
  | true, none => do
      set world
      pure (.tidy (units.map .release) (.fault .unsupported))
  | true, some body => do
      let (world, obj) := world.addObject { name, body, refs := units, script }
      set (world.addHolder name obj)
      answer (.unit (some obj))

def startClone (thread : Nat) (source target : Option String) : Attempt β Frame := do
  let holder ← handle source
  let target ← field target
  let holders ← use [some holder]
  modify (·.acquire thread holder.unit)
  pure (.tidy (.store target holder.unit :: holders.map .endUse) .ok)

def startInfo (source : Option String) : Attempt β Frame := do
  let holder ← handle source
  let world ← get
  answer (.info holder.unit (world.facts holder.unit) (world.count holder.unit))

def startMutate (value : Option Payload) (source : Option String) : Attempt β Frame := do
  let some payload := value | throw .badValue
  let holder ← handle source
  require (holder.users = 0) .busy
  require (Resident.offer β).mutation .unsupported
  modify (·.modifyHolder holder.id ({ · with users := 1, exclusive := true }))
  pure (.mutate holder.id holder.unit payload false)

def startCompare (left right : Option String) : Attempt β Frame := do
  let left ← handle left
  let right ← handle right
  require (Resident.offer β).values .unsupported
  let payload (holder : Holder) := do pure ((← get).facts holder.unit).payload
  answer (.comparison (Payload.compare? (← payload left) (← payload right)))

def startFreeze (source : Option String) : Attempt β Frame := do
  let holder ← handle source
  modify (·.modifyObject holder.unit fun object =>
    { object with body := Resident.freeze object.body })
  answer .ok

def startHash (source : Option String) : Attempt β Frame := do
  let holder ← handle source
  require (Resident.offer β).values .unsupported
  answer (.text ((← get).facts holder.unit).payload.hashText)

/-- A unit is nothing but the address of its object. -/
def startIdentity (source : Option String) : Attempt β Frame := do
  let obj := (← handle source).unit
  answer (.identity (obj == obj))

def startDebug (source : Option String) (layout : Option Layout) : Attempt β Frame := do
  let holder ← handle source
  let layout ← field layout
  answer (.text (((← get).shape layout holder.unit).render layout.pretty))

def startDisplay (source : Option String) (layout : Option (Option Layout)) :
    Attempt β Frame := do
  let holder ← handle source
  let known ← field layout
  require (Resident.offer β).values .unsupported
  let layout ← field known
  answer (.text (((← get).facts holder.unit).payload.display layout))

def startIntoRaw (raw source : Option String) : Attempt β Frame := do
  let raw ← field raw
  require ((← get).raw? raw).isNone .nameTaken
  let unit ← pull source
  modify (·.addRaw raw unit)
  answer .ok

def startFromRaw (target raw : Option String) : Attempt β Frame := do
  let target ← field target
  let raw ← field raw
  match (← get).raw? raw with
  | none => throw .unknownHandle
  | some unit =>
      modify (·.eraseRaw raw)
      pure (.tidy [.store target unit] .ok)

/-! ## Guards -/

def guardOf : GuardArg → Attempt β Guard
  | .absent => pure .standard
  | .given guard => pure guard
  | .malformed => throw .malformed

/-- Asks a guard about a reference that may be empty. -/
def consult (thread : Nat) (guard : Guard) : Option ObjectId → Attempt β Bool
  | none => pure true
  | some obj => do
      let facts := (← get).facts obj
      modify (·.ask thread guard obj)
      pure (guard.accepts facts)

/-- As `consult`, but a rejection is reported, and the rejected object is named. -/
def enforce (thread : Nat) (guard : Guard) (unit : Option ObjectId) :
    Attempt β (Option ObjectId) := do
  if ← consult thread guard unit then
    pure none
  else
    unit.forM fun obj => modify (·.trace thread (.rejected obj))
    pure unit

def startCheck (thread : Nat) (source : Arg) (guard : GuardArg) : Attempt β Frame := do
  let holder ← arg source
  let guard ← guardOf guard
  answer (.flag (← consult thread guard (holder.map (·.unit))))

def startEnsure (thread : Nat) (source : Arg) (guard : GuardArg) : Attempt β Frame := do
  let holder ← arg source
  let guard ← guardOf guard
  match ← enforce thread guard (holder.map (·.unit)) with
  | none => answer .ok
  | some obj => answer (.fault (.unshareable obj))

def startCompareErrors (thread : Nat) (left right : Option String) : Attempt β Frame := do
  let left ← handle left
  let right ← handle right
  let first ← enforce thread .standard (some left.unit)
  let second ← enforce thread .standard (some right.unit)
  match first, second with
  | some first, some second => answer (.errors (first == second) (first == first))
  | _, _ => answer .null

end SharedCell.Operation
