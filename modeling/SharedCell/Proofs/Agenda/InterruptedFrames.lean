import Mathlib
import SharedCell.Proofs.Cell.Stage
import SharedCell.Proofs.Ownership.Step

/-!
# Interrupted frames

Only the top of an agenda makes steps.  What lies below it was interrupted, by the destruction of an
object or by an operation that it started itself.  A call is interrupted only where it releases a
unit, and there it holds no lock, has no pin and keeps no displaced content; an operation that
changes a payload is never interrupted.
-/

namespace SharedCell

variable {β : Type}

/-- A frame that can be interrupted. -/
def Frame.AtRest : Frame → Prop
  | .call active => active.stage.phase.Idle
  | .mutate .. => False
  | _ => True

/-- A frame that is neither a call nor about to change a payload. -/
def Frame.Quiet : Frame → Prop
  | .call _ | .mutate .. => False
  | _ => True

namespace Phase

/-- A call on a slot gives back a unit between two attempts to read. -/
theorem idle_of_release {slot next : Slot} {phase later : Phase} {obj : ObjectId}
    (hstep : phase.step slot = some (next, later, some (.release obj))) : later.Idle := by
  cases move_of_step hstep with
  | discard unit attempt => exact Stage.idle_locking _

end Phase

namespace Stage

open Text

theorem idle_of_release {kind : CellKind} {guard : Guard} {action : Action}
    {facts : ObjectId → Facts} {shape : Layout → ObjectId → Shape} {slot next : Slot}
    {stage later : Stage} {obj : ObjectId}
    (hstep : stage.step kind guard action facts shape slot =
      some (next, later, some (.release obj))) : later.phase.Idle := by
  rcases step_phase hstep with hphase | ⟨-, -, hafter⟩
  · exact Phase.idle_of_release hphase
  · exact hafter

end Stage

variable [Resident β] {world next : World β} {thread : ℕ}

namespace World

/-- A release opens the destruction of one object, or nothing. -/
theorem letGo_cases (world : World β) (thread : ℕ) (unit : ObjectId) :
    (world.letGo thread unit).2 = [] ∨
      ∃ frame, (world.letGo thread unit).2 = [frame] ∧ frame.Quiet := by
  unfold letGo
  split
  · right
    split
    · exact ⟨_, rfl, trivial⟩
    · exact ⟨_, rfl, trivial⟩
  · exact .inl rfl

theorem letGo?_cases (world : World β) (thread : ℕ) (unit : Option ObjectId) :
    (world.letGo? thread unit).2 = [] ∨
      ∃ frame, (world.letGo? thread unit).2 = [frame] ∧ frame.Quiet := by
  cases unit with
  | none => exact .inl rfl
  | some unit => exact letGo_cases world thread unit

end World

theorem Chore.perform_cases (chore : Chore) (thread : ℕ) (world : World β) :
    (chore.perform thread world).2 = [] ∨
      ∃ frame, (chore.perform thread world).2 = [frame] ∧ frame.Quiet := by
  cases chore with
  | release unit => exact world.letGo_cases thread unit
  | store name unit => exact World.letGo?_cases _ thread _
  | endUse holder => exact World.letGo?_cases _ thread _
  | leaveCell cell => exact .inl rfl
  | join => exact .inl rfl
  | resume => exact .inl rfl

/-- A call is interrupted at a release only. -/
theorem Call.affect_cases (world : World β) (thread : ℕ) (guard : Guard)
    (effect : Option Effect) :
    (affect world thread guard effect).2 = [] ∨
      ∃ obj frame, effect = some (.release obj) ∧
        (affect world thread guard effect).2 = [frame] ∧ frame.Quiet := by
  cases effect with
  | none => exact .inl rfl
  | some effect =>
    cases effect with
    | release obj =>
      rcases world.letGo_cases thread obj with hnone | ⟨frame, hframe, hquiet⟩
      · exact .inl hnone
      · exact .inr ⟨obj, frame, rfl, hframe, hquiet⟩
    | _ => exact .inl rfl

namespace Frame

theorem Quiet.atRest {frame : Frame} (hquiet : frame.Quiet) : frame.AtRest := by
  cases frame <;> first | exact trivial | exact hquiet.elim

/-- Frames that are opened on top of a frame that can be interrupted. -/
theorem forall_opened {property : Frame → Prop} {opened below : List Frame} {frame : Frame}
    (hopened : opened = [] ∨ ∃ other, opened = [other] ∧ other.Quiet)
    (hframe : opened ≠ [] → property frame) (hbelow : ∀ other ∈ below, property other) :
    ∀ other ∈ (opened ++ frame :: below).tail, property other := by
  rcases hopened with rfl | ⟨other, rfl, -⟩
  · exact hbelow
  · exact List.forall_mem_cons.mpr ⟨hframe (by simp), hbelow⟩

/-- What holds of all frames below the top of an agenda: a call gets there by a release, and all
other frames that do are quiet. -/
theorem forall_tail_step {property : Frame → Prop} {agenda later : List Frame}
    (hquiet : ∀ frame : Frame, frame.Quiet → property frame)
    (hcall : ∀ active below (cell : Cell) slot stage obj, agenda = .call active :: below →
      active.stage.step cell.kind cell.guard active.action world.facts world.shape cell.slot =
        some (slot, stage, some (.release obj)) → property (.call { active with stage }))
    (htail : ∀ frame ∈ agenda.tail, property frame)
    (hordinary : ∀ frame ∈ agenda, frame.ordinary = true)
    (hstep : step thread world agenda = some (next, later)) :
    ∀ frame ∈ later.tail, property frame := by
  cases agenda with
  | nil => cases hstep
  | cons top below =>
    rw [List.tail_cons] at htail
    have htop := hordinary top List.mem_cons_self
    cases move_of_step hstep with
    | @call active _ _ _ hactive =>
      rcases Call.step_cases hactive with
        ⟨outcome, -, rfl, rfl⟩ | ⟨cell, slot, stage, effect, -, hstage, rfl, rfl⟩
      · exact htail
      · rw [List.append_assoc]
        rcases Call.affect_cases (world.modifyCell active.cell ({ · with slot })) thread cell.guard
          effect with hnone | ⟨obj, frame, rfl, hframe, hopened⟩
        · exact forall_opened (.inl hnone) (fun hne => absurd hnone hne) htail
        · exact forall_opened (.inr ⟨frame, hframe, hopened⟩)
            (fun _ => hcall active below cell slot stage obj rfl hstage) htail
    | reply told frame => exact fun other hother => htail other (List.mem_cons_of_mem frame hother)
    | chore chore chores told =>
      exact forall_opened (chore.perform_cases thread world) (fun _ => hquiet _ trivial) htail
    | tell | perform => exact List.forall_mem_cons.mpr ⟨hquiet _ trivial, htail⟩
    | surrendered => exact fun frame hframe => htail frame (List.mem_of_mem_tail hframe)
    | @surrender _ ref after =>
      exact forall_opened (after.letGo_cases thread ref) (fun _ => hquiet _ trivial) htail
    | stress => cases htop
    | _ => exact htail

/-- What lies below the top of an agenda can be interrupted, after every step as before it. -/
theorem atRest_step {agenda later : List Frame} (hrest : ∀ frame ∈ agenda.tail, frame.AtRest)
    (hordinary : ∀ frame ∈ agenda, frame.ordinary = true)
    (hstep : step thread world agenda = some (next, later)) :
    ∀ frame ∈ later.tail, frame.AtRest :=
  forall_tail_step (fun _ hquiet => hquiet.atRest)
    (fun _ _ _ _ _ _ _ hstage => Stage.idle_of_release hstage) hrest hordinary hstep

end Frame

end SharedCell
