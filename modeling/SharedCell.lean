import SharedCell.Answer
import SharedCell.Proofs.Slot.Pins
import SharedCell.Proofs.Slot.Register
import SharedCell.Proofs.Cell.Stage
import SharedCell.Proofs.Cell.Answers
import SharedCell.Proofs.Places
import SharedCell.Proofs.Cell.Linearization
import SharedCell.Proofs.Agenda.Attempt
import SharedCell.Proofs.Cell.Sound
import SharedCell.Proofs.Crew.Contents
import SharedCell.Proofs.Agenda.InterruptedFrames
import SharedCell.Proofs.Crew.Progress
import SharedCell.Proofs.Ownership.Sole
import SharedCell.Proofs.Crew.Access
import SharedCell.Proofs.Agenda.Opening
import SharedCell.Proofs.Crew.Publication
import SharedCell.Proofs.Solo.Run
import SharedCell.Proofs.Solo.AtomicCalls
import SharedCell.Proofs.Solo.IdleSlots
import SharedCell.Proofs.Agenda.FramesAbove
import SharedCell.Proofs.Solo.SettledCalls
import SharedCell.Proofs.Solo.Performance
import SharedCell.Proofs.Solo.Equivalences
import SharedCell.Proofs.Crew.Atomic
import SharedCell.Proofs.Solo.Writes
import SharedCell.Proofs.Agenda.Changes
import SharedCell.Proofs.Crew.UnlockedEffects
import SharedCell.Proofs.Agenda.StepInvariants
import SharedCell.Proofs.Crew.Teardown
import SharedCell.Proofs.Twins.Begin
import SharedCell.Proofs.Twins.Step
import SharedCell.Proofs.Crew.Heaps
import SharedCell.Proofs.Twins.Performances
import SharedCell.Proofs.Twins.Logs
import SharedCell.Proofs.Solo.Freezing
import SharedCell.Proofs.Twins.FreezableCells
import SharedCell.Proofs.Twins.Frozen
import SharedCell.Proofs.Twins.Unnoticed
import SharedCell.Proofs.Agenda.StepBounds
import SharedCell.Proofs.Slot.StepBounds
import SharedCell.Proofs.Agenda.Weights
import SharedCell.Proofs.Solo.Ending
import SharedCell.Proofs.Solo.CallEffects
import SharedCell.Proofs.Solo.Conduct
import SharedCell.Proofs.Solo.Arguments
import SharedCell.Proofs.Solo.Operations
import SharedCell.Proofs.Solo.Comparisons
import SharedCell.Proofs.Crew.CallRuns
import SharedCell.Proofs.Cell.Exchange
import SharedCell.Proofs.Crew.Comparison
import SharedCell.Proofs.Agenda.Questions
import SharedCell.Proofs.Crew.Exchange
import SharedCell.Proofs.Solo.Offers
import SharedCell.Proofs.Crew.Screening
import SharedCell.Proofs.Ownership.Settled
import SharedCell.Proofs.Solo.Names
import SharedCell.Proofs.Solo.CellResults
import SharedCell.Proofs.Solo.Tasks
import SharedCell.Proofs.Crew.Commuting
import SharedCell.Proofs.Crew.FrozenAccess
import SharedCell.Proofs.Agenda.CallsInProgress
import SharedCell.Proofs.Slot.PinnedVersions
import SharedCell.Proofs.Crew.CallsUnderWay
import SharedCell.Proofs.Crew.LockAndPins
import SharedCell.Proofs.Slot.ReadRounds
import SharedCell.Proofs.Crew.Moments
import SharedCell.Proofs.Crew.Reads
import SharedCell.Proofs.Cell.UnitEffects
import SharedCell.Proofs.Agenda.LoggedUnits
import SharedCell.Proofs.Crew.Spending
