import SharedCell.Agenda

/-!
# Attempts

The checks that operations make before they do anything.  A check that fails ends the attempt with
its fault, and the world is as it was.
-/

namespace SharedCell

variable {β : Type}

/-- A step that leaves the world as it was if it ends with a fault. -/
abbrev Attempt (β : Type) := StateT (World β) (Except Fault)

namespace Attempt

def field {α : Type} (value : Option α) : Attempt β α :=
  match value with
  | some value => pure value
  | none => throw .malformed

def require (condition : Bool) (fault : Fault) : Attempt β Unit :=
  if condition then pure () else throw fault

def named (name : String) : Attempt β Holder := do
  match (← get).holder? name with
  | none => throw .unknownHandle
  | some holder => if holder.exclusive then throw .busy else pure holder

def handle (name : Option String) : Attempt β Holder := do
  named (← field name)

def arg : Arg → Attempt β (Option Holder)
  | .empty => pure none
  | .named name => some <$> named name
  | .malformed => throw .malformed

/-- Takes a handle that nothing uses out of the table. -/
def pull (name : Option String) : Attempt β ObjectId := do
  let holder ← handle name
  require (holder.users = 0) .busy
  modify (·.eraseHolder holder.id)
  pure holder.unit

/-- The address that a slot's content is compared with: that of the object of a handle, none, or
that of an object whose name is given behind `@`. -/
def address [Resident β] : Arg → Attempt β (Option ObjectId)
  | .named name => do
      if name.startsWith "@" then
        match (← get).findObject? (name.drop 1).toString with
        | none => throw .unknownObject
        | some obj =>
            let gone := ((← get).object? obj).any (·.destroyed)
            require (!gone || (Resident.offer β).staleAddresses) .destroyed
            pure (some obj)
      else
        pure (some (← named name).unit)
  | .empty => pure none
  | .malformed => throw .malformed

def cell (name : Option String) : Attempt β (String × Cell) := do
  let name ← field name
  match (← get).cell? name with
  | none => throw .unknownCell
  | some cell => pure (name, cell)

def newCellName (name : Option String) : Attempt β String := do
  let name ← field name
  require ((← get).cell? name).isNone .nameTaken
  pure name

/-- Keeps the handles of arguments until the operation ends. -/
def use (holders : List (Option Holder)) : Attempt β (List Nat) := do
  let ids := holders.filterMap (·.map (·.id))
  modify fun world => ids.foldl (fun world id =>
    world.modifyHolder id fun holder => { holder with users := holder.users + 1 }) world
  pure ids

end Attempt

end SharedCell
