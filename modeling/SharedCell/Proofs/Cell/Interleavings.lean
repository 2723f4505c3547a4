import Mathlib
import SharedCell.Proofs.Cell.Stage
import SharedCell.Proofs.Slot.Register

/-!
# Interleavings of calls on a cell

Any number of threads make calls on one cell, each from a program of its own.  The atomic steps of
the calls interleave freely, and what guards and texts see of objects changes between them.
-/

namespace SharedCell

/-- A call in progress.  Calls are numbered in the order in which they begin. -/
structure Running where
  number : ℕ
  action : Action
  stage : Stage

/-- What can be told of calls: that one began, that it replaced the content, that it ended. -/
inductive Mark where
  | began (number thread : ℕ) (action : Action)
  | stored (number : ℕ)
  | ended (number : ℕ) (outcome : Outcome)

/-- The calls that threads make on a cell, and the marks that they left, the first one first. -/
structure Traffic where
  slot : Slot
  /-- What each thread is still to ask of the cell. -/
  programs : List (List Action)
  running : List Running := []
  /-- How many calls have begun. -/
  calls : ℕ := 0
  history : List Mark := []

/-- What happens next: a thread begins its next call, a call makes a step, which sees the objects
as they are at this moment, or a call that has its outcome ends. -/
inductive Move where
  | begin (thread : ℕ)
  | advance (index : ℕ) (facts : ObjectId → Facts) (shape : Text.Layout → ObjectId → Text.Shape)
  | finish (index : ℕ)

namespace Traffic

/-- A cell with a register's content and version, on which no call has begun. -/
def opening (register : Register) (programs : List (List Action)) : Traffic where
  slot := { content := register.content, version := register.version }
  programs := programs

/-- A move that cannot be made leaves everything as it is.  A thread can begin a call while another
of its calls is in progress, as it does when an object that the call releases performs a script. -/
def step (kind : CellKind) (guard : Guard) (traffic : Traffic) : Move → Traffic
  | .begin thread =>
      match traffic.programs[thread]? with
      | some (action :: program) =>
          { traffic with
            programs := traffic.programs.set thread program
            running := ⟨traffic.calls, action, action.opening kind⟩ :: traffic.running
            calls := traffic.calls + 1
            history := traffic.history ++ [.began traffic.calls thread action] }
      | _ => traffic
  | .advance index facts shape =>
      match traffic.running[index]? with
      | some call =>
          match call.stage.step kind guard call.action facts shape traffic.slot with
          | some (slot, stage, _) =>
              { traffic with
                slot
                running := traffic.running.set index { call with stage }
                history := traffic.history ++
                  if call.stage.phase.stores then [.stored call.number] else [] }
          | none => traffic
      | none => traffic
  | .finish index =>
      match traffic.running[index]? with
      | some { number, stage := .finished outcome, .. } =>
          { traffic with
            running := traffic.running.eraseIdx index
            history := traffic.history ++ [.ended number outcome] }
      | _ => traffic

def run (kind : CellKind) (guard : Guard) (traffic : Traffic) (moves : List Move) : Traffic :=
  moves.foldl (step kind guard) traffic

end Traffic

end SharedCell
