import Mathlib
import SharedCell.Proofs.Agenda.Changes
import SharedCell.Proofs.Crew.Publication
import SharedCell.Proofs.Solo.IdleSlots

/-!
# Undisturbed calls

A thread that is alone is never disturbed in the middle of a call on a slot: nothing is performed
between its accesses, so the version that it has copied stays that of the slot.  A call that is
interrupted has its outcome, so whatever interrupts it can do with the cell what it wants.
-/

namespace SharedCell

variable {β : Type}

namespace Phase

/-- The version that the call has copied is that of the slot, and the call neither reads again nor
has waited for pins. -/
def Undisturbed (slot : Slot) : Phase → Prop
  | .locking (.recheck _ observed _) | .copying (.recheck _ observed _) => observed = slot.version
  | .pinning (.read _) _ version | .parting (.read _) _ version | .acquiring (.read _) _ version
  | .unpinning (.read _) _ version => version = slot.version
  | .comparing _ observed _ current => current = observed
  | .draining _ _ rounds => rounds = 0
  | .noting .. | .reporting .. | .discarding .. => False
  | _ => True

variable {slot next : Slot} {phase later : Phase} {effect : Option Effect}

theorem undisturbed_locking {errand : Errand} (hfresh : errand.Fresh) (slot : Slot) :
    (locking errand).Undisturbed slot := by
  cases errand <;> first | exact hfresh.elim | trivial

theorem undisturbed_copied {errand : Errand} (hundisturbed : (copying errand).Undisturbed slot) :
    (copied slot errand).Undisturbed slot := by
  cases errand with
  | snapshot =>
    simp only [copied]
    split <;> trivial
  | read attempt =>
    simp only [copied]
    split
    · rfl
    · trivial
  | recheck unit observed attempt => exact hundisturbed.symm
  | version => trivial
  | exchange expected new observe =>
    simp only [copied]
    split <;> split <;> trivial

theorem undisturbed_acquired {purpose : Purpose} {unit : ObjectId} {version : ℕ}
    (hundisturbed : (unpinning purpose unit version).Undisturbed slot) :
    (acquired unit version purpose).Undisturbed (slot.unpin version) := by
  cases purpose with
  | snapshot => trivial
  | read attempt => exact hundisturbed
  | mismatch => trivial

/-- A step of the call itself does not disturb it. -/
theorem Undisturbed.step (hundisturbed : phase.Undisturbed slot)
    (hpolls : phase.polls slot = false)
    (hstep : phase.step slot = some (next, later, effect)) : later.Undisturbed next := by
  cases move_of_step hstep with
  | lock errand => cases errand <;> exact hundisturbed
  | copy errand => exact undisturbed_copied hundisturbed
  | pin purpose | part purpose | acquire purpose => cases purpose <;> exact hundisturbed
  | unpin purpose unit version => exact undisturbed_acquired hundisturbed
  | outdate unit attempt hother => exact absurd hundisturbed hother
  | displace => rfl
  | poll old rounds hpinned => simp [polls, hpinned] at hpolls
  | emerge old hwaited => exact absurd hundisturbed hwaited
  | note | report | discard => exact hundisturbed.elim
  | acquireNew | store | depart | drain | leave | confirm => trivial

end Phase

namespace Stage

/-- What is left of the call on the slot is not disturbed. -/
def Undisturbed (slot : Slot) : Stage → Prop
  | .asking _ errand => errand.Fresh
  | .calling phase => phase.Undisturbed slot
  | _ => True

variable {kind : CellKind} {guard : Guard} {action : Action} {facts : ObjectId → Facts}
  {shape : Text.Layout → ObjectId → Text.Shape} {slot next : Slot} {stage later : Stage}
  {effect : Option Effect}

theorem Past.undisturbed (hpast : stage.Past) (slot : Slot) : stage.Undisturbed slot := by
  cases stage <;> first | exact hpast.elim | trivial

theorem undisturbed_opening (kind : CellKind) (action : Action) (slot : Slot) :
    (action.opening kind).Undisturbed slot := by
  unfold Action.opening
  split
  · exact Errand.fresh_errand _ action
  · exact Phase.undisturbed_locking (Errand.fresh_errand _ action) slot

theorem Undisturbed.step (hundisturbed : stage.Undisturbed slot)
    (hpolls : stage.polls slot = false)
    (hstep : stage.step kind guard action facts shape slot = some (next, later, effect)) :
    later.Undisturbed next := by
  cases move_of_step hstep with
  | accept => exact Phase.undisturbed_locking hundisturbed _
  | call hphase => exact Phase.Undisturbed.step hundisturbed hpolls hphase
  | receive result => exact Past.undisturbed (past_received kind result action) _
  | _ => trivial

/-- A call that gives back a unit has its outcome, unless it reads again. -/
theorem finished_of_release {obj : ObjectId}
    (hother : ∀ unit attempt, stage ≠ .calling (.discarding unit attempt))
    (hstep : stage.step kind guard action facts shape slot =
      some (next, later, some (.release obj))) : ∃ outcome, later = .finished outcome := by
  cases move_of_step hstep with
  | call hphase =>
    cases Phase.move_of_step hphase with
    | discard _ attempt => exact absurd rfl (hother obj attempt)
  | release unit outcome => exact ⟨outcome, rfl⟩

end Stage

namespace Frame

/-- A call that is not disturbed. -/
def Undisturbed (world : World β) : Frame → Prop
  | .call active => ∀ cell, world.cell? active.cell = some cell →
      active.stage.Undisturbed cell.slot
  | _ => True

/-- A call that has its outcome. -/
def Ended : Frame → Prop
  | .call active => ∃ outcome, active.stage = .finished outcome
  | _ => True

theorem Ended.undisturbed {frame : Frame} (hended : frame.Ended) (world : World β) :
    frame.Undisturbed world := by
  cases frame with
  | call active =>
    obtain ⟨outcome, hfinished⟩ := hended
    intro cell _
    rw [hfinished]
    trivial
  | _ => trivial

theorem Quiet.ended {frame : Frame} (hquiet : frame.Quiet) : frame.Ended := by
  cases frame <;> first | exact trivial | exact hquiet.elim

end Frame

namespace Crew

variable [Resident β] {crew next : Crew β} {thread : ℕ}

/-- A single thread whose calls are not disturbed. -/
structure Steady (crew : Crew β) : Prop where
  alone : crew.Alone
  undisturbed : ∀ agenda ∈ crew.agendas, ∀ frame ∈ agenda, frame.Undisturbed crew.world
  ended : ∀ agenda ∈ crew.agendas, ∀ frame ∈ agenda.tail, frame.Ended
  unreported : ∀ entry ∈ crew.world.log, entry.2.isReport = false

theorem start_steady {ops : List Operation} (hordinary : Operation.ordinaryAll ops = true) :
    (start [ops] : Crew β).Steady where
  alone := start_alone hordinary
  undisturbed agenda hagenda frame hframe := by
    obtain rfl := List.mem_singleton.mp hagenda
    obtain rfl := List.mem_singleton.mp hframe
    trivial
  ended agenda hagenda frame hframe := by
    obtain rfl := List.mem_singleton.mp hagenda
    cases hframe
  unreported entry hentry := by cases hentry

/-- A thread that is alone waits for nobody. -/
theorem Alone.not_waitsFor (halone : crew.Alone) {other : ℕ} : ¬ crew.WaitsFor thread other := by
  intro hwaits
  obtain ⟨only, honly⟩ := halone.alone
  obtain ⟨_, _, _, _, hthread, hfound, -⟩ := id hwaits
  have hfirst := (List.getElem?_eq_some_iff.mp hthread).1
  have hsecond := (List.getElem?_eq_some_iff.mp hfound).1
  rw [honly, List.length_singleton, Nat.lt_one_iff] at hfirst hsecond
  subst hfirst
  subst hsecond
  exact (halone.sound.unchained halone.rest hwaits).2 0 hwaits

/-- The only thread makes a step. -/
theorem Steady.step_cases (hsteady : crew.Steady) (hstep : crew.step thread = some next) :
    ∃ agenda later, crew.agendas = [agenda] ∧ next.agendas = [later] ∧
      Frame.step thread crew.world agenda = some (next.world, later) := by
  obtain ⟨agenda, world, later, hagenda, hframe, rfl⟩ := step_eq_some hstep
  obtain ⟨only, honly⟩ := hsteady.alone.alone
  rw [honly] at hagenda
  cases thread with
  | zero =>
    obtain rfl := Option.some.inj hagenda
    exact ⟨only, later, honly, congrArg (List.set · 0 later) honly, hframe⟩
  | succ thread => cases hagenda

/-- A call that makes a step is not disturbed by it, nor is a call that begins. -/
theorem Steady.undisturbed_step {agenda later : List Frame} {world : World β}
    (hsteady : crew.Steady) (honly : crew.agendas = [agenda])
    (hstep : Frame.step thread crew.world agenda = some (world, later)) :
    ∀ frame ∈ later, frame.Undisturbed world := by
  have hmem : agenda ∈ crew.agendas := honly ▸ List.mem_singleton_self agenda
  intro frame hframe
  rcases Frame.comes_step (hsteady.alone.sound.ordinary_agenda hmem) hstep frame hframe with
    hkept | hopening | ⟨active, below, cell, slot, stage, effect, rfl, hcell, hstage, rfl, rfl⟩ |
      ⟨holder, obj, payload, below, object, -, -, -, -, rfl⟩
  · exact (hsteady.ended agenda hmem frame hkept).undisturbed world
  · cases frame with
    | call active =>
      obtain ⟨found, hfound, hstage⟩ := hopening
      intro cell hcell
      rw [hstage]
      exact Stage.undisturbed_opening found.kind active.action cell.slot
    | _ => trivial
  · intro found hfound
    have hafter : (crew.world.modifyCell active.cell ({ · with slot })).cell? active.cell =
        some { cell with slot } := World.cell?_modifyCell hcell
    have hcells := Call.cells_affect (crew.world.modifyCell active.cell ({ · with slot })) thread
      cell.guard effect
    rw [World.cell?, hcells] at hfound
    obtain rfl := Option.some.inj (hafter.symm.trans hfound)
    refine (hsteady.undisturbed _ hmem _ List.mem_cons_self cell hcell).step ?_ hstage
    rw [← Bool.not_eq_true]
    intro hpolls
    have hwaits : active.polls crew.world = true := by
      rw [Call.polls, hcell, Option.any_some, hpolls]
    have htop : crew.agendas[0]? = some (.call active :: below) := by
      rw [honly]
      rfl
    obtain ⟨other, hother⟩ := hsteady.alone.sound.waitsFor htop (.inl hwaits)
    exact hsteady.alone.not_waitsFor hother
  · trivial

theorem Steady.step [Lawful β] (hsteady : crew.Steady) (hstep : crew.step thread = some next) :
    next.Steady := by
  have halone := hsteady.alone.step hstep
  obtain ⟨agenda, later, honly, hlater, hframe⟩ := hsteady.step_cases hstep
  have hmem : agenda ∈ crew.agendas := honly ▸ List.mem_singleton_self agenda
  have hordinary := hsteady.alone.sound.ordinary_agenda hmem
  refine ⟨halone, ?_, ?_, ?_⟩
  · intro other hother
    rw [hlater] at hother
    obtain rfl := List.mem_singleton.mp hother
    exact hsteady.undisturbed_step honly hframe
  · intro other hother
    rw [hlater] at hother
    obtain rfl := List.mem_singleton.mp hother
    refine Frame.forall_tail_step (fun _ hquiet => hquiet.ended) ?_ (hsteady.ended agenda hmem)
      hordinary hframe
    rintro active below cell slot stage obj rfl hstage
    refine Stage.finished_of_release ?_ hstage
    intro unit attempt hdiscarding
    obtain ⟨found, hfound, -⟩ := hsteady.alone.sound.cell_of_call
      (List.mem_iff_getElem?.mp hmem).choose_spec List.mem_cons_self
    have hcall := hsteady.undisturbed _ hmem _ List.mem_cons_self found hfound
    rw [hdiscarding] at hcall
    exact hcall
  · obtain ⟨events, hevents, hall⟩ :=
      Frame.step_logs hsteady.alone.sound.world hordinary hframe
    intro entry hentry
    rw [hevents] at hentry
    rcases List.mem_append.mp hentry with hnew | hold
    · by_contra hreport
      obtain ⟨call, below, phase, between, rfl, hphase, hreports, -⟩ :=
        (hall entry hnew).2 (Bool.not_eq_false _ ▸ hreport)
      obtain ⟨found, hfound, -⟩ := hsteady.alone.sound.cell_of_call
        (List.mem_iff_getElem?.mp hmem).choose_spec List.mem_cons_self
      have hcall := hsteady.undisturbed _ hmem _ List.mem_cons_self found hfound
      rw [hphase] at hcall
      generalize entry.2 = event at hreports
      cases hreports <;> exact hcall
    · exact hsteady.unreported entry hold

theorem Steady.run [Lawful β] (hsteady : crew.Steady) (schedule : List ℕ) :
    (crew.run schedule).Steady :=
  run_keeps Steady (fun _ _ _ hsteady hstep => hsteady.step hstep) hsteady schedule

end Crew

end SharedCell
