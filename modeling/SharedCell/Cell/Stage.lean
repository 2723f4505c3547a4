import SharedCell.Cell.Action
import SharedCell.Heap.Resident

/-!
# Stages of a call on a cell

A call on a cell goes through stages: the guard is asked about a new content before the slot is
touched, the slot is called, and what the slot hands out is passed on or given back.  Guards are
asked, events are reported and units are released between phases that hold no lock and no pin.
-/

namespace SharedCell

open Text

inductive Stage where
  /-- The guard is about to be asked about the new content. -/
  | asking (new : ObjectId) (errand : Errand)
  /-- The rejection of the new content is about to be reported. -/
  | rejecting (new : ObjectId)
  | calling (phase : Phase)
  /-- The text of the content, on which the call has a unit, is about to be written. -/
  | writing (unit : ObjectId) (version : Nat)
  /-- The guard is about to be asked about the content, on which the call has a unit. -/
  | vetting (unit : ObjectId)
  /-- The rejection of the content, on which the call has a unit, is about to be reported. -/
  | refusing (unit : ObjectId)
  /-- A unit is about to be given back. -/
  | releasing (unit : ObjectId) (outcome : Outcome)
  | finished (outcome : Outcome)
  deriving DecidableEq

namespace Action

/-- The first stage of a call.  Only an atomic cell asks its guard about what it is to store, and
it asks before it compares. -/
def opening (kind : CellKind) (action : Action) : Stage :=
  match kind, action.new? with
  | .atomic, some new => .asking new (action.errand kind)
  | _, _ => .calling (.locking (action.errand kind))

end Action

def cellShape (kind : CellKind) (layout : Layout) (content : Option Shape) (version : Nat) :
    Shape :=
  let value : Shape := match content with
    | some shape => .tuple "Some" [shape]
    | none => .leaf "None"
  match kind with
  | .freezable => .record "FreezableAtomicCell" [("value", value)]
  | _ => .record "AtomicCell" [("value", value), ("version", .leaf (layout.number version))]

namespace Stage

/-- Gives back a unit that the caller did not ask for. -/
def giveBack (unit : Option ObjectId) (outcome : Outcome) : Stage :=
  match unit with
  | some obj => .releasing obj outcome
  | none => .finished outcome

/-- What a call does with what the slot yields. -/
def received (kind : CellKind) (result : Yield) : Action → Stage
  | .set _ => giveBack result.unit .done
  | .compareAndSet _ _ => giveBack result.unit (.flag result.replaced)
  | .version => giveBack result.unit (.version result.version)
  | .swap _ _ | .swapIf _ _ => .finished (.swapped result.replaced result.unit)
  | .snapshot => .finished (.snapshot result.unit result.version)
  | .freeze =>
      match result.unit with
      | some unit => .vetting unit
      | none => .finished .done
  | .showText layout =>
      match result.unit with
      | some unit => .writing unit result.version
      | none => .finished (.text ((cellShape kind layout none result.version).render layout.pretty))
  | .get | .copy | .replace _ | .take | .compareAndSwap _ _ | .assign _ =>
      .finished (.unit result.unit)

/-- The units that a call owns between its steps, those of its outcome included. -/
def units : Stage → List ObjectId
  | .calling phase => phase.units
  | .writing unit _ | .vetting unit | .refusing unit => [unit]
  | .releasing unit outcome => unit :: outcome.units
  | .finished outcome => outcome.units
  | .asking .. | .rejecting _ => []

/-- Whether the next step of a call only finds that the displaced version is still pinned. -/
def polls (slot : Slot) : Stage → Bool
  | .calling phase => phase.polls slot
  | _ => false

/-- The next step of a call on a cell.  `facts` and `shape` are what the objects are like at this
moment. -/
def step (kind : CellKind) (guard : Guard) (action : Action) (facts : ObjectId → Facts)
    (shape : Layout → ObjectId → Shape) (slot : Slot) :
    Stage → Option (Slot × Stage × Option Effect)
  | .asking new errand =>
      if guard.accepts (facts new) then
        some (slot, .calling (.locking errand), some (.ask new))
      else
        some (slot, .rejecting new, some (.ask new))
  | .rejecting new => some (slot, .finished (.rejected new), some (.reject new))
  | .calling (.done result) => some (slot, received kind result action, none)
  | .calling phase => (phase.step slot).map fun (slot, phase, effect) =>
      (slot, .calling phase, effect)
  | .writing unit version =>
      match action with
      | .showText layout =>
          let written := cellShape kind layout (some (shape layout unit)) version
          some (slot, .releasing unit (.text (written.render layout.pretty)), none)
      | _ => some (slot, .releasing unit .done, none)
  | .vetting unit =>
      if guard.accepts (facts unit) then
        some (slot, .releasing unit .done, some (.ask unit))
      else
        some (slot, .refusing unit, some (.ask unit))
  | .refusing unit => some (slot, .releasing unit (.rejected unit), some (.reject unit))
  | .releasing unit outcome => some (slot, .finished outcome, some (.release unit))
  | .finished _ => none

end Stage

end SharedCell
