import SharedCell.Slot

/-!
# Phases of a call on a slot

A call on a slot goes through phases, and each step from one phase to the next is one atomic
access to the slot or to an object.  Steps of calls by different threads interleave freely.

* Every call first takes the lock and copies content and version.
* A snapshot and an exchange that observes a mismatch go on to pin the content, give up the lock,
  acquire a unit and drop the pin.
* A replacement acquires the new unit under the lock, which is safe because the caller keeps a unit
  of its own, stores it, gives up the lock, and waits for the pins on the displaced version before
  it hands out the displaced unit.  It looks at the pins again and again, and reports how often it
  did so in vain, if it did.
* A read is a snapshot whose version is checked again once the unit is there.  If the content was
  replaced in between, the unit is given back and the read starts anew.

An attempt to take a lock that is taken changes nothing, also not the caller, and is no step.  Looks
at the pins that are in vain are steps, since they are counted.  How long a caller pauses between
two of them is not modelled.  The numbers of attempts and of rounds have 32 bits: the former wraps,
the latter stays at its limit.  Versions, which have 64 bits, are taken to be unbounded.
-/

namespace SharedCell

/-- What a call on a slot is after.  `recheck` is the second half of a read that has got a unit. -/
inductive Errand where
  | snapshot
  | read (attempt : UInt32)
  | recheck (unit : ObjectId) (observed : Nat) (attempt : UInt32)
  | version
  /-- Without `expected` the exchange is unconditional; `observe` asks for a fresh unit on a
  content that was left in place. -/
  | exchange (expected : Option (Option ObjectId)) (new : Option ObjectId) (observe : Bool)
  deriving DecidableEq

/-- What a call wants a fresh unit on the content for. -/
inductive Purpose where
  | snapshot
  | read (attempt : UInt32)
  | mismatch
  deriving DecidableEq

/-- What a call on a slot hands to its caller: a unit, the version that was seen, and whether the
content was replaced. -/
structure Yield where
  unit : Option ObjectId := none
  version : Nat := 0
  replaced : Bool := false
  deriving DecidableEq

inductive Phase where
  | locking (errand : Errand)
  | copying (errand : Errand)
  | pinning (purpose : Purpose) (content : ObjectId) (version : Nat)
  | parting (purpose : Purpose) (content : ObjectId) (version : Nat)
  | acquiring (purpose : Purpose) (content : ObjectId) (version : Nat)
  | unpinning (purpose : Purpose) (unit : ObjectId) (version : Nat)
  | acquiringNew (new : ObjectId)
  | storing (new : Option ObjectId)
  | departing (old : Option ObjectId) (version : Nat)
  | draining (old : ObjectId) (version : Nat) (rounds : UInt32)
  | noting (old : ObjectId) (version : Nat) (rounds : UInt32)
  | leaving (result : Yield)
  | comparing (unit : ObjectId) (observed : Nat) (attempt : UInt32) (current : Nat)
  | reporting (unit : ObjectId) (observed : Nat) (attempt : UInt32) (current : Nat)
  | discarding (unit : ObjectId) (attempt : UInt32)
  | done (result : Yield)
  deriving DecidableEq

/-- What a step does besides its access to the slot. -/
inductive Effect where
  | acquire (obj : ObjectId)
  | release (obj : ObjectId)
  /-- A guard is asked about an object. -/
  | ask (obj : ObjectId)
  /-- The rejection of an object is reported. -/
  | reject (obj : ObjectId)
  /-- A read reports that it starts anew. -/
  | retry (observed current : Nat) (attempt : UInt32)
  /-- A replacement reports how often it has looked in vain whether what it has displaced is still
  pinned. -/
  | wait (version : Nat) (rounds : UInt32)
  deriving DecidableEq

namespace Phase

/-- The lock is held between these steps. -/
def holdsLock : Phase → Bool
  | .copying _ | .pinning .. | .parting .. | .acquiringNew _ | .storing _ | .departing ..
  | .leaving _ | .comparing .. => true
  | _ => false

/-- The version that is pinned between these steps. -/
def pinned? : Phase → Option Nat
  | .parting _ _ version | .acquiring _ _ version | .unpinning _ _ version => some version
  | _ => none

/-- The units that the call owns between these steps. -/
def units : Phase → List ObjectId
  | .unpinning _ unit _ => [unit]
  | .storing new => new.toList
  | .departing old _ => old.toList
  | .draining old _ _ | .noting old _ _ => [old]
  | .locking (.recheck unit _ _) | .copying (.recheck unit _ _) => [unit]
  | .comparing unit _ _ _ | .reporting unit _ _ _ | .discarding unit _ => [unit]
  | .leaving result | .done result => result.unit.toList
  | _ => []

/-- The phase that an errand goes to once the lock is held and content and version are read. -/
def copied (slot : Slot) : Errand → Phase
  | .snapshot =>
      match slot.content with
      | some content => .pinning .snapshot content slot.version
      | none => .leaving { version := slot.version }
  | .read attempt =>
      match slot.content with
      | some content => .pinning (.read attempt) content slot.version
      | none => .leaving {}
  | .recheck unit observed attempt => .comparing unit observed attempt slot.version
  | .version => .leaving { version := slot.version }
  | .exchange expected new observe =>
      if expected.all (· == slot.content) then
        match new with
        | some obj => .acquiringNew obj
        | none => .storing none
      else
        match slot.content, observe with
        | some content, true => .pinning .mismatch content slot.version
        | _, _ => .leaving {}

/-- The phase that a call goes to once it has a unit on the content and dropped its pin. -/
def acquired (unit : ObjectId) (version : Nat) : Purpose → Phase
  | .snapshot => .done { unit := some unit, version }
  | .read attempt => .locking (.recheck unit version attempt)
  | .mismatch => .done { unit := some unit }

/-- The number of rounds after one more of them.  It stays at its limit. -/
def nextRound (rounds : UInt32) : UInt32 :=
  if rounds + 1 = 0 then rounds else rounds + 1

/-- Whether the next step of a call only finds that the displaced version is still pinned. -/
def polls (slot : Slot) : Phase → Bool
  | .draining _ version _ => slot.pins.count version != 0
  | _ => false

/-- The next atomic step of a call, with what it leaves of the slot.  There is none while the lock
is taken by another call, or when the call is done. -/
def step (slot : Slot) : Phase → Option (Slot × Phase × Option Effect)
  | .locking errand =>
      if slot.locked then none else some (slot.lock, .copying errand, none)
  | .copying errand => some (slot, copied slot errand, none)
  | .pinning purpose content version =>
      some (slot.pin version, .parting purpose content version, none)
  | .parting purpose content version =>
      some (slot.unlock, .acquiring purpose content version, none)
  | .acquiring purpose content version =>
      some (slot, .unpinning purpose content version, some (.acquire content))
  | .unpinning purpose unit version =>
      some (slot.unpin version, acquired unit version purpose, none)
  | .acquiringNew new => some (slot, .storing (some new), some (.acquire new))
  | .storing new =>
      some (slot.store new, .departing slot.content slot.version, none)
  | .departing none _ => some (slot.unlock, .done { replaced := true }, none)
  | .departing (some old) version => some (slot.unlock, .draining old version 0, none)
  | .draining old version rounds =>
      if slot.pins.count version ≠ 0 then
        some (slot, .draining old version (nextRound rounds), none)
      else if rounds = 0 then
        some (slot, .done { unit := some old, replaced := true }, none)
      else
        some (slot, .noting old version rounds, none)
  | .noting old version rounds =>
      some (slot, .done { unit := some old, replaced := true }, some (.wait version rounds))
  | .leaving result => some (slot.unlock, .done result, none)
  | .comparing unit observed attempt current =>
      if current = observed then some (slot.unlock, .done { unit := some unit }, none)
      else some (slot.unlock, .reporting unit observed (attempt + 1) current, none)
  | .reporting unit observed attempt current =>
      some (slot, .discarding unit attempt, some (.retry observed current attempt))
  | .discarding unit attempt =>
      some (slot, .locking (.read attempt), some (.release unit))
  | .done _ => none

end Phase

end SharedCell
