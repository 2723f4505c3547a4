import Mathlib
import SharedCell.Proofs.Crew.Units
import SharedCell.Proofs.Solo.AtomicCalls
import SharedCell.Proofs.Solo.Performance

/-!
# What a call does itself

On its way a call asks guards, reports rejections, and acquires and releases units.  So do the
scripts of the objects that it destroys, but the call is not alone on the agenda of its thread while
they are performed.  What it does while it is alone is what it does itself.
-/

namespace SharedCell

variable {β : Type} [Resident β] {world next between : World β} {reply : Reply}

namespace Solo

/-- What a call that is alone on the agenda does with its next step besides its access to the
slot. -/
def ownEffect? : Solo β → Option Effect
  | (world, [.call call]) => call.effect? world
  | _ => none

/-- What the call at the bottom of the agenda does itself in a number of steps, in turn. -/
def ownEffects : ℕ → Solo β → List Effect
  | 0, _ => []
  | count + 1, solo => solo.ownEffect?.toList ++ ownEffects count (solo.next.getD solo)

/-- The thread ends in a world with a reply, and this is what the call at the bottom of its agenda
has done itself. -/
def Does (solo : Solo β) (effects : List Effect) (next : World β) (reply : Reply) : Prop :=
  ∃ count, advance Solo.next count solo = (next, [.tidy [] reply]) ∧ ownEffects count solo = effects

variable {solo later : Solo β} {effects : List Effect}

theorem Does.ends (hdoes : Does solo effects next reply) : Ends solo next reply := by
  obtain ⟨count, hends, -⟩ := hdoes
  exact ⟨count, hends⟩

theorem Ends.does (hends : Ends solo next reply) : ∃ effects, Does solo effects next reply := by
  obtain ⟨count, hends⟩ := hends
  exact ⟨_, count, hends, rfl⟩

theorem ownEffects_ended (count : ℕ) (world : World β) (reply : Reply) :
    ownEffects count (world, [.tidy [] reply]) = [] := by
  induction count with
  | zero => rfl
  | succ count ih => exact ih

theorem does_reply {told : Reply} : Does (world, [.tidy [] told]) effects next reply ↔
    next = world ∧ reply = told ∧ effects = [] := by
  constructor
  · rintro ⟨count, hends, rfl⟩
    obtain ⟨rfl, rfl⟩ := ends_reply.mp ⟨count, hends⟩
    exact ⟨rfl, rfl, ownEffects_ended count next reply⟩
  · rintro ⟨rfl, rfl, rfl⟩
    exact ⟨0, rfl, rfl⟩

theorem does_step (hstep : solo.next = some later) : Does solo effects next reply ↔
    ∃ rest, effects = solo.ownEffect?.toList ++ rest ∧ Does later rest next reply := by
  constructor
  · rintro ⟨count, hends, rfl⟩
    cases count with
    | zero =>
      rw [show solo = (next, [.tidy [] reply]) from hends, next_ended] at hstep
      cases hstep
    | succ count =>
      rw [advance, hstep, Option.getD_some] at hends
      exact ⟨ownEffects count later, by rw [ownEffects, hstep, Option.getD_some], count, hends, rfl⟩
  · rintro ⟨_, rfl, count, hends, rfl⟩
    refine ⟨count + 1, ?_, ?_⟩
    · rwa [advance, hstep, Option.getD_some]
    · rw [ownEffects, hstep, Option.getD_some]

/-- A step that has no effect but its access to the slot. -/
theorem does_quiet (hstep : solo.next = some later) (hquiet : solo.ownEffect? = none) :
    Does solo effects next reply ↔ Does later effects next reply := by
  simp [does_step hstep, hquiet]

/-! ## Frames -/

/-- What is on top of a call is not done by the call. -/
theorem ownEffect?_above {above : List Frame} (hnonempty : above ≠ []) (world : World β)
    (frame : Frame) : ownEffect? (world, above ++ [frame]) = none := by
  match above, hnonempty with
  | [top], _ => cases top <;> rfl
  | top :: second :: above, _ => cases top <;> rfl

theorem does_cleared {above : List Frame} {frame : Frame} (hinert : frame.Inert)
    (hclears : Clears world above between) :
    Does (world, above ++ [frame]) effects next reply ↔
      Does (between, [frame]) effects next reply := by
  induction hclears with
  | nil world => exact Iff.rfl
  | @step world after last above rest hstep _ ih =>
    have hnonempty : above ≠ [] := by
      rintro rfl
      cases hstep
    exact (does_quiet (next_above_eq_some hinert hstep)
      (ownEffect?_above hnonempty world frame)).trans ih

theorem does_above {above : List Frame} {frame : Frame} (hinert : frame.Inert) :
    Does (world, above ++ [frame]) effects next reply ↔
      ∃ between, Clears world above between ∧ Does (between, [frame]) effects next reply := by
  constructor
  · intro hdoes
    obtain ⟨between, hclears, -⟩ := (ends_above hinert).mp hdoes.ends
    exact ⟨between, hclears, (does_cleared hinert hclears).mp hdoes⟩
  · rintro ⟨between, hclears, hdoes⟩
    exact (does_cleared hinert hclears).mpr hdoes

/-- Chores are not the call's. -/
theorem does_tidy {chores : List Chore} {told : Reply} :
    Does (world, [.tidy chores told]) effects next reply ↔
      effects = [] ∧ Ends (world, [.tidy chores told]) next reply := by
  induction chores generalizing world with
  | nil => rw [does_reply, ends_reply, ← and_assoc, and_comm]
  | cons chore chores ih =>
    have hnext : Solo.next (world, [.tidy (chore :: chores) told]) =
        some ((chore.perform 0 world).1, (chore.perform 0 world).2 ++ [.tidy chores told]) := rfl
    rw [does_quiet hnext rfl, does_above (Frame.inert_tidy chores told), ends_step hnext,
      ends_above (Frame.inert_tidy chores told)]
    simp only [ih]
    constructor
    · rintro ⟨between, hclears, rfl, hends⟩
      exact ⟨rfl, between, hclears, hends⟩
    · rintro ⟨rfl, between, hclears, hends⟩
      exact ⟨between, hclears, rfl, hends⟩

/-! ## Calls -/

section Calls

variable (call : Call) {cell : Cell}

theorem ownEffect?_call {slot : Slot} {stage : Stage} {effect : Option Effect}
    (hcell : world.cell? call.cell = some cell)
    (hstep : call.stage.step cell.kind cell.guard call.action world.facts world.shape cell.slot =
      some (slot, stage, effect)) : ownEffect? (world, [.call call]) = effect := by
  simp only [ownEffect?, Call.effect?, hcell, Option.bind_eq_bind, Option.bind_some, hstep]

/-- A call that has its outcome does nothing more. -/
theorem does_finished {outcome : Outcome} (hstage : call.stage = .finished outcome) :
    Does (world, [.call call]) effects next reply ↔
      effects = [] ∧ Ends (world, [.call call]) next reply := by
  have hnext : Solo.next (world, [.call call]) =
      some ((call.conclude world outcome).1, [(call.conclude world outcome).2]) := by
    simp [Solo.next, Frame.step, Call.step, hstage]
  have hquiet : ownEffect? (world, [.call call]) = none := by
    simp only [ownEffect?, Call.effect?, hstage]
    cases world.cell? call.cell <;> rfl
  rw [does_quiet hnext hquiet, ends_step hnext]
  exact does_tidy

theorem ownEffect?_phase {slot : Slot} {phase later : Phase} {effect : Option Effect}
    (hcell : world.cell? call.cell = some cell)
    (hstep : phase.step cell.slot = some (slot, later, effect)) :
    ownEffect? (world, [.call { call with stage := .calling phase }]) = effect :=
  ownEffect?_call { call with stage := .calling phase } hcell (Stage.step_calling_of_step hstep)

/-- A call on a slot acquires what its errand asks for. -/
theorem does_leads {slot last : Slot} {phase : Phase} {acquired : List ObjectId} {result : Yield}
    (hleads : phase.Leads slot acquired last result)
    (hcell : world.cell? call.cell = some cell) (hslot : cell.slot = slot)
    (effects : List Effect) (next : World β) (reply : Reply) :
    Does (world, [.call { call with stage := .calling phase }]) effects next reply ↔
      ∃ rest, effects = acquired.map .acquire ++ rest ∧
        Does ((world.acquireAll 0 acquired).modifyCell call.cell ({ · with slot := last }),
          [.call { call with stage := .received cell.kind result call.action }]) rest next
          reply := by
  induction hleads generalizing world cell effects with
  | done slot result =>
    subst hslot
    let ended : Call := { call with stage := .calling (.done result) }
    have hended : world.cell? ended.cell = some cell := hcell
    have hstage : ended.stage.step cell.kind cell.guard ended.action world.facts world.shape
        cell.slot = some (cell.slot, .received cell.kind result call.action, none) := rfl
    have hnext : Solo.next (world, [.call ended]) =
        some (world.modifyCell call.cell ({ · with slot := cell.slot }),
          [.call { call with stage := .received cell.kind result call.action }]) :=
      next_call hended hstage
    rw [does_quiet hnext (ownEffect?_call ended hended hstage)]
    simp [World.acquireAll]
  | @quiet slot between last phase later acquired result hstep hrest ih =>
    subst hslot
    let after := world.modifyCell call.cell ({ · with slot := between })
    have hafter : after.cell? call.cell = some { cell with slot := between } :=
      World.cell?_modifyCell hcell
    have hagain := ih hafter rfl effects
    rw [World.acquireAll_modifyCell, World.modifyCell_slot] at hagain
    rw [← hagain]
    exact does_quiet (next_phase hcell hstep) (ownEffect?_phase call hcell hstep)
  | @acquire slot between last phase later obj acquired result hstep hrest ih =>
    subst hslot
    let after := (world.acquire 0 obj).modifyCell call.cell ({ · with slot := between })
    have hafter : after.cell? call.cell = some { cell with slot := between } :=
      World.cell?_modifyCell hcell
    have hagain := ih hafter rfl
    rw [World.acquireAll_modifyCell, World.modifyCell_slot] at hagain
    rw [does_step (next_phase hcell hstep), ownEffect?_phase call hcell hstep]
    constructor
    · rintro ⟨_, rfl, hdoes⟩
      obtain ⟨rest, rfl, hlast⟩ := (hagain _).mp hdoes
      exact ⟨rest, rfl, hlast⟩
    · rintro ⟨rest, rfl, hlast⟩
      exact ⟨_, rfl, (hagain _).mpr ⟨rest, rfl, hlast⟩⟩

end Calls

end Solo

end SharedCell
