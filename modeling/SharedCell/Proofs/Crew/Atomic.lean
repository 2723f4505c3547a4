import Mathlib
import SharedCell.Proofs.Crew.Units
import SharedCell.Proofs.Solo.Equivalences
import SharedCell.Proofs.Solo.SettledCalls

/-!
# Cells as registers

To a program that runs on its own, cells are registers: a content and the number of its
replacements.  Each call on a cell takes effect at once.  What objects perform when they are
destroyed, on the same cells and to any depth, comes after the effect of the call that has destroyed
them: it finds the cell as the call has left it, the call does not write again, and its outcome is
an answer for the register that it has found.
-/

namespace SharedCell

variable {β : Type} [Resident β]

namespace Solo

/-- Where a program is after a number of steps if calls on slots take a single one. -/
def leaps (ops : List Operation) (count : ℕ) : Solo β :=
  advance leap count (start ops)

theorem leaps_succ (ops : List Operation) (count : ℕ) :
    (leaps ops (count + 1) : Solo β) =
      ((leaps ops count : Solo β).leap).getD (leaps ops count) :=
  advance_succ count (start ops)

/-- The register of a cell stays as it is until a step that may change it. -/
theorem Calm.register?_leaps [Lawful β] {ops : List Operation} (hcalm : (start ops : Solo β).Calm)
    {first : ℕ} {name : String} (more : ℕ)
    (hunwritten : ∀ count, first ≤ count → count < first + more → ∀ later,
      (leaps ops count : Solo β).leap = some later → ¬ Writes (leaps ops count) later name) :
    (leaps ops (first + more) : Solo β).1.register? name =
      (leaps ops first : Solo β).1.register? name := by
  induction more with
  | zero => rfl
  | succ more ih =>
    have hbefore := ih fun count hfirst hlt => hunwritten count hfirst (by omega)
    rw [← Nat.add_assoc, leaps_succ]
    cases hleap : (leaps ops (first + more) : Solo β).leap with
    | none => exact hbefore
    | some later =>
      rw [Option.getD_some, ← hbefore]
      rcases (hcalm.advance (first + more)).writes hleap name with hsame | hwrites
      · exact hsame
      · exact absurd hwrites (hunwritten _ (Nat.le_add_right first more) (by omega) later hleap)

end Solo

namespace Crew

open Solo

/-- What it means that cells are registers to a program. -/
structure Atomic (β : Type) [Resident β] (ops : List Operation) : Prop where
  /-- A program that runs on its own makes the steps of its only thread. -/
  runs : ∀ count, (Crew.start [ops] : Crew β).run (List.replicate count 0) =
    (advance next count (Solo.start ops)).crew
  /-- It gets to the states of the machine whose calls take a single step, in turn and through no
  others but those in which it is in the middle of such a call. -/
  refines : ∃ pace, Refines next leap Within (Solo.start ops : Solo β) pace
  /-- This machine goes on as long as something is under way. -/
  goes : ∀ count, Frame.Unfinished (leaps ops count : Solo β).2 →
    (leaps ops count : Solo β).leap.isSome
  /-- Its cells are nothing but their registers. -/
  plain : ∀ count name cell, (leaps ops count : Solo β).1.cell? name = some cell →
    cell.slot = cell.slot.register.slot
  /-- A call does what its action asks of the register. -/
  errands : ∀ count call below errand, (leaps ops count : Solo β).2 = .call call :: below →
    call.stage = .calling (.locking errand) → ∃ cell,
      (leaps ops count : Solo β).1.cell? call.cell = some cell ∧
        errand = call.action.errand cell.kind
  /-- A call that was interrupted has its outcome. -/
  interrupted : ∀ count call, .call call ∈ (leaps ops count : Solo β).2.tail →
    ∃ outcome, call.stage = .finished outcome
  /-- The outcome of a call is an answer for the register that the call has found. -/
  course : ∀ count call below errand cell, (leaps ops count : Solo β).2 = .call call :: below →
    call.stage = .calling (.locking errand) →
    (leaps ops count : Solo β).1.cell? call.cell = some cell → ∀ more,
      Course call below cell (errand.settle cell.slot.register).2
          (leaps ops (count + 1 + more) : Solo β) ∨
        ∃ ended outcome, count < ended ∧ ended < count + 1 + more ∧
          Concludes call below outcome (leaps ops ended : Solo β) ∧
          Answers cell.kind cell.guard call.action cell.slot.register outcome
            (errand.settle cell.slot.register).2
  /-- The reply of a call is that to its outcome. -/
  concludes : ∀ count call below outcome, Concludes call below outcome (leaps ops count : Solo β) →
    ∃ chores, (leaps ops (count + 1) : Solo β).2 =
      .tidy chores (call.settle (leaps ops count : Solo β).1 outcome).2.2 :: below
  /-- An operation that has its reply keeps it, whatever is left to do for it. -/
  replied : ∀ count above chores reply below,
    (leaps ops count : Solo β).2 = above ++ .tidy chores reply :: below →
    above ≠ [] ∨ chores ≠ [] →
    ∃ rest left, (leaps ops (count + 1) : Solo β).2 = rest ++ .tidy left reply :: below
  /-- Registers change when calls take effect and when operations make cells or consume them, and
  not when calls end, except for what they copy. -/
  writes : ∀ count later name, (leaps ops count : Solo β).leap = some later →
    later.1.register? name = (leaps ops count : Solo β).1.register? name ∨
      Writes (leaps ops count) later name
  /-- Whoever comes next finds what the call has left. -/
  found : ∀ count call below errand cell, (leaps ops count : Solo β).2 = .call call :: below →
    call.stage = .calling (.locking errand) →
    (leaps ops count : Solo β).1.cell? call.cell = some cell → ∀ more,
      (∀ between, count < between → between < count + 1 + more → ∀ later,
        (leaps ops between : Solo β).leap = some later →
          ¬ Writes (leaps ops between) later call.cell) →
      (leaps ops (count + 1 + more) : Solo β).1.register? call.cell =
        some (cell.slot.register.after (errand.settle cell.slot.register).2)
  /-- To set an atomic cell is to replace its content and to drop what was replaced. -/
  set : ∀ count name new expected other target, (∀ cell,
      (leaps ops count : Solo β).1.cell? name = some cell → cell.kind = .atomic) →
    Operation.Alike (leaps ops count : Solo β).1 .dropped
      (.onCell (some name) .set new expected target) (.onCell (some name) .replace new other none)
  /-- To take the content of an atomic cell is to replace it by nothing. -/
  take : ∀ count name expected other target, (∀ cell,
      (leaps ops count : Solo β).1.cell? name = some cell → cell.kind = .atomic) →
    Operation.Alike (leaps ops count : Solo β).1 id
      (.onCell (some name) .take .empty expected target)
      (.onCell (some name) .replace .empty other target)
  /-- To drop an atomic cell or a slot is to consume it and to drop its content. -/
  drop : ∀ count name, (∀ cell,
      (leaps ops count : Solo β).1.cell? name = some cell → cell.kind ≠ .freezable) →
    Operation.Alike (leaps ops count : Solo β).1 .dropped
      (.dropCell (some name)) (.intoInner (some name) none)

/-- To a program of ordinary operations cells are registers, whatever its objects perform when they
are destroyed. -/
theorem run_atomic [Lawful β] {ops : List Operation}
    (hordinary : Operation.ordinaryAll ops = true) : Atomic β ops := by
  have hopening : (Solo.start ops : Solo β).Calm := start_calm hordinary
  have hcalm (count : ℕ) : (leaps ops count : Solo β).Calm := hopening.advance count
  have hexchangeable : ∀ count name, (∀ cell,
      (leaps ops count : Solo β).1.cell? name = some cell → cell.kind = .atomic) →
      Operation.Exchangeable (leaps ops count : Solo β).1 (some name) := by
    rintro count name hkind found cell ⟨⟩ hcell
    exact ⟨hkind cell hcell, (hcalm count).plain hcell⟩
  constructor
  case runs => exact fun count => crew_run (Solo.start ops) count
  case refines => exact hopening.refines
  case goes => exact fun count hunfinished => (hcalm count).leap_isSome hunfinished
  case plain => exact fun count _ _ hcell => (hcalm count).plain hcell
  case errands => exact fun count _ _ _ hagenda hstage => (hcalm count).errand hagenda hstage
  case interrupted => exact fun count => (hcalm count).settled
  case course =>
    exact fun count call below errand cell hagenda hstage hcell more =>
      hopening.course hagenda hstage hcell more
  case concludes =>
    intro count call below outcome hconcludes
    obtain ⟨world, chores, hleap⟩ := hconcludes.leap
    rw [leaps_succ, hleap, Option.getD_some]
    exact ⟨chores, rfl⟩
  case replied =>
    intro count above chores reply below hagenda hleft
    rw [leaps_succ]
    cases hleap : (leaps ops count : Solo β).leap with
    | none => exact ⟨above, chores, hagenda⟩
    | some later => exact leap_tidy hagenda hleft hleap
  case writes => exact fun count _ name hleap => (hcalm count).writes hleap name
  case found =>
    intro count call below errand cell hagenda hstage hcell more hunwritten
    rw [hopening.register?_leaps more fun between hafter hbefore =>
      hunwritten between hafter hbefore, leaps_succ, leap_locking hagenda hstage hcell]
    exact World.register?_leap hcell _ _
  case set =>
    exact fun count name _ _ _ _ hkind =>
      Operation.alike_set (hexchangeable count name hkind) _ _ _ _
  case take =>
    exact fun count name _ _ _ hkind =>
      Operation.alike_take (hexchangeable count name hkind) _ _ _
  case drop =>
    rintro count name hkind
    refine Operation.alike_dropCell ?_
    rintro found cell ⟨⟩ hcell
    exact hkind cell hcell

/-- A cell is set while it holds the last unit on an object, which sets the same cell when it is
destroyed. -/
def reentry : List Operation :=
  [.alloc (some "b") (some (.int 2)) (some .frozen) [] [],
    .alloc (some "a") (some (.int 1)) (some .frozen) []
      [.onCell (some "c") .set (.named "b") .empty none],
    .newCell (some "c") .absent (.named "a") (some (some .atomic)) (some .value) none,
    .drop (some "a"),
    .onCell (some "c") .set .empty .empty none]

/-- The inner call comes last. -/
theorem run_atomic_reentry : Operation.ordinaryAll reentry = true ∧
    ((start [reentry] : Crew Staged).run (List.replicate 60 0)).world.register? "c" =
      some { content := some 0, version := 2 } ∧
    Atomic Staged reentry :=
  ⟨by decide, by decide +kernel, run_atomic (by decide)⟩

end Crew

end SharedCell
