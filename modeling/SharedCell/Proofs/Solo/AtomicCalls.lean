import Mathlib
import SharedCell.Proofs.Slot.StepBounds
import SharedCell.Proofs.Solo.Registers
import SharedCell.Proofs.Solo.Run

/-!
# Calls that take effect at once

A cell is nothing but a register to the machine that is defined here: a call on a cell finds the
content and the version and leaves the next ones in a single step, which also fixes what the slot
yields.  One thread alone gets through all the phases of a call on a slot to the same end, and
nothing else happens in between, since a call on a slot releases nothing that nobody interferes
with.
-/

namespace SharedCell

variable {β : Type}

/-- A slot that nobody has locked or pinned. -/
def Register.slot (register : Register) : Slot where
  content := register.content
  version := register.version

namespace Errand

/-- An errand that a call can begin with. -/
def Fresh : Errand → Prop
  | .recheck .. => False
  | _ => True

/-- The units that a call acquires: on what it stores, or else on what it yields. -/
def acquired (register : Register) (errand : Errand) : List ObjectId :=
  match errand.settle register with
  | (_, some new) => new.toList
  | (result, none) => result.unit.toList

end Errand

/-! ## Phases -/

theorem Pins.unpin_pin (version : ℕ) : (({} : Pins).pin version).unpin version = {} := by
  unfold pin unpin
  split <;> rfl

namespace Phase

/-- The steps of a call on a slot to its end, if nothing interferes: what it acquires on its way,
and how it leaves the slot. -/
inductive Leads : Slot → Phase → List ObjectId → Slot → Yield → Prop where
  | done (slot : Slot) (result : Yield) : Leads slot (.done result) [] slot result
  | quiet {slot between last : Slot} {phase next : Phase} {acquired : List ObjectId}
      {result : Yield} (hstep : phase.step slot = some (between, next, none))
      (hrest : Leads between next acquired last result) : Leads slot phase acquired last result
  | acquire {slot between last : Slot} {phase next : Phase} {obj : ObjectId}
      {acquired : List ObjectId} {result : Yield}
      (hstep : phase.step slot = some (between, next, some (.acquire obj)))
      (hrest : Leads between next acquired last result) :
      Leads slot phase (obj :: acquired) last result

/-- A call that gets to its end does not wait for pins, since nobody takes them away. -/
theorem Leads.polls {slot last : Slot} {phase : Phase} {acquired : List ObjectId} {result : Yield}
    (hleads : phase.Leads slot acquired last result) : phase.polls slot = false := by
  induction hleads with
  | done => rfl
  | @quiet slot between last phase later acquired result hstep hrest ih =>
    rw [← Bool.not_eq_true]
    intro hpolls
    obtain ⟨old, version, rounds, rfl, hpinned⟩ := polls_eq_true hpolls
    rw [step, if_pos hpinned] at hstep
    cases hstep
    simp [Phase.polls, hpinned] at ih
  | acquire hstep => cases move_of_step hstep <;> rfl

variable {register : Register} {content : ObjectId} {version : ℕ}

/-- From the pin to the last but one step of a call that wants a fresh unit. -/
theorem leads_pinning {purpose : Purpose} {slot last : Slot} {acquired : List ObjectId}
    {result : Yield} (hpins : slot.pins = {})
    (hrest : Leads slot.unlock (Phase.acquired content version purpose) acquired last result) :
    Leads slot (.pinning purpose content version) (content :: acquired) last result := by
  refine .quiet rfl (.quiet rfl (.acquire rfl (.quiet rfl ?_)))
  have hunpinned : ((slot.pin version).unlock).unpin version = slot.unlock := by
    simp [Slot.pin, Slot.unlock, Slot.unpin, hpins, Pins.unpin_pin]
  rw [hunpinned]
  exact hrest

theorem leads_snapshot (register : Register) :
    Leads register.slot (.locking .snapshot) (Errand.acquired register .snapshot) register.slot
      (Errand.settle register .snapshot).1 := by
  obtain ⟨content, version⟩ := register
  cases content with
  | none => exact .quiet rfl (.quiet rfl (.quiet rfl (.done _ _)))
  | some content =>
    exact .quiet rfl (.quiet rfl (leads_pinning rfl (.done _ _)))

/-- A read finds the version that it has seen. -/
theorem leads_read (register : Register) (attempt : UInt32) :
    Leads register.slot (.locking (.read attempt)) (Errand.acquired register (.read attempt))
      register.slot (Errand.settle register (.read attempt)).1 := by
  obtain ⟨content, version⟩ := register
  cases content with
  | none => exact .quiet rfl (.quiet rfl (.quiet rfl (.done _ _)))
  | some content =>
    refine .quiet rfl (.quiet rfl (leads_pinning rfl (.quiet rfl (.quiet rfl ?_))))
    exact .quiet (if_pos rfl) (.done _ _)

theorem leads_version (register : Register) :
    Leads register.slot (.locking .version) (Errand.acquired register .version) register.slot
      (Errand.settle register .version).1 :=
  .quiet rfl (.quiet rfl (.quiet rfl (.done _ _)))

/-- Nobody has pinned what is displaced. -/
theorem leads_storing (register : Register) (new : Option ObjectId) :
    Leads register.slot.lock (.storing new) [] (register.after (some new)).slot
      { unit := register.content, replaced := true } := by
  obtain ⟨content, version⟩ := register
  cases content with
  | none => exact .quiet rfl (.quiet rfl (.done _ _))
  | some old =>
    have hfree : ((Register.mk (some old) version).slot.lock.store new).unlock.pins.count version =
        0 := by
      simp [Register.slot, Slot.lock, Slot.store, Slot.unlock, Pins.count]
    exact .quiet rfl (.quiet rfl (.quiet (step_drained hfree) (.done _ _)))

theorem leads_exchange (register : Register) (expected : Option (Option ObjectId))
    (new : Option ObjectId) (observe : Bool) :
    Leads register.slot (.locking (.exchange expected new observe))
      (Errand.acquired register (.exchange expected new observe))
      (register.after (Errand.settle register (.exchange expected new observe)).2).slot
      (Errand.settle register (.exchange expected new observe)).1 := by
  by_cases hsame : expected.all (· == register.content) = true
  · have hsettle : Errand.settle register (.exchange expected new observe) =
        ({ unit := register.content, replaced := true }, some new) := if_pos hsame
    rw [Errand.acquired, hsettle]
    cases new with
    | none =>
      have hcopied : copied register.slot.lock (.exchange expected none observe) = .storing none :=
        if_pos hsame
      refine .quiet rfl (.quiet rfl ?_)
      rw [hcopied]
      exact leads_storing register none
    | some obj =>
      have hcopied : copied register.slot.lock (.exchange expected (some obj) observe) =
          .acquiringNew obj := if_pos hsame
      refine .quiet rfl (.quiet rfl ?_)
      rw [hcopied]
      exact .acquire rfl (leads_storing register (some obj))
  · have hsettle : Errand.settle register (.exchange expected new observe) =
        ({ unit := if observe then register.content else none }, none) := if_neg hsame
    rw [Errand.acquired, hsettle]
    refine .quiet rfl (.quiet rfl ?_)
    rw [show copied register.slot.lock (.exchange expected new observe) = _ from if_neg hsame]
    obtain ⟨content, version⟩ := register
    cases content with
    | none => cases observe <;> exact .quiet rfl (.done _ _)
    | some content =>
      cases observe with
      | false => exact .quiet rfl (.done _ _)
      | true => exact leads_pinning rfl (.done _ _)

theorem cost_locking {errand : Errand} (hfresh : errand.Fresh) (slot : Slot) :
    (locking errand).cost slot = 10 := by
  cases errand with
  | recheck => exact hfresh.elim
  | _ => rfl

/-- Nobody interferes with a call on a slot, so that it does what its errand does on a register. -/
theorem leads_locking {errand : Errand} (hfresh : errand.Fresh) (register : Register) :
    Leads register.slot (.locking errand) (errand.acquired register)
      (register.after (errand.settle register).2).slot (errand.settle register).1 := by
  cases errand with
  | snapshot => exact leads_snapshot register
  | read attempt => exact leads_read register attempt
  | recheck unit observed attempt => exact hfresh.elim
  | version => exact leads_version register
  | exchange expected new observe => exact leads_exchange register expected new observe

end Phase

/-! ## Calls -/

namespace World

variable {world : World β} {name : String}

theorem modifyCell_slot (first second : Slot) :
    (world.modifyCell name ({ · with slot := first })).modifyCell name ({ · with slot := second }) =
      world.modifyCell name ({ · with slot := second }) :=
  world.modifyCell_modifyCell name _ _

end World

variable [Resident β]

namespace World

/-- Acquires units one after the other. -/
def acquireAll (world : World β) (thread : ℕ) (units : List ObjectId) : World β :=
  units.foldl (fun world unit => world.acquire thread unit) world

theorem acquireAll_modifyCell (world : World β) (thread : ℕ) (units : List ObjectId) (name : String)
    (change : Cell → Cell) :
    (world.modifyCell name change).acquireAll thread units =
      (world.acquireAll thread units).modifyCell name change := by
  induction units generalizing world with
  | nil => rfl
  | cons unit units ih => exact ih (world.acquire thread unit)

end World

/-- What a call does to the world and to the agenda when it makes a step on its cell. -/
theorem Call.step_eq {world : World β} {thread : ℕ} {call : Call} {cell : Cell} {slot : Slot}
    {stage : Stage} {effect : Option Effect} (hcell : world.cell? call.cell = some cell)
    (hstep : call.stage.step cell.kind cell.guard call.action world.facts world.shape cell.slot =
      some (slot, stage, effect)) :
    call.step world thread =
      some ((affect (world.modifyCell call.cell ({ · with slot })) thread cell.guard effect).1,
        (affect (world.modifyCell call.cell ({ · with slot })) thread cell.guard effect).2 ++
          [.call { call with stage }]) := by
  unfold step
  split
  · rename_i outcome hfinished
    rw [hfinished] at hstep
    cases hstep
  · simp only [hcell, hstep, Option.bind_eq_bind, Option.bind_some]
    cases effect <;> rfl

namespace Solo

/-- The thread is in the middle of a call on a slot. -/
def Amid (call : Call) (below : List Frame) (solo : Solo β) : Prop :=
  ∃ phase, solo.2 = .call { call with stage := .calling phase } :: below

/-- A step of a call on its cell. -/
theorem next_call {world : World β} {call : Call} {below : List Frame} {cell : Cell} {slot : Slot}
    {stage : Stage} {effect : Option Effect} (hcell : world.cell? call.cell = some cell)
    (hstep : call.stage.step cell.kind cell.guard call.action world.facts world.shape cell.slot =
      some (slot, stage, effect)) :
    next (world, .call call :: below) =
      some ((Call.affect (world.modifyCell call.cell ({ · with slot })) 0 cell.guard effect).1,
        (Call.affect (world.modifyCell call.cell ({ · with slot })) 0 cell.guard effect).2 ++
          .call { call with stage } :: below) := by
  rw [next, Frame.step, Call.step_eq hcell hstep, Option.map_some]
  exact congrArg (fun agenda => some (_, agenda)) (List.append_assoc _ _ below)

/-- A step of its call on the slot. -/
theorem next_phase {world : World β} {call : Call} {below : List Frame} {cell : Cell} {slot : Slot}
    {phase later : Phase} {effect : Option Effect} (hcell : world.cell? call.cell = some cell)
    (hstep : phase.step cell.slot = some (slot, later, effect)) :
    next (world, .call { call with stage := .calling phase } :: below) =
      some ((Call.affect (world.modifyCell call.cell ({ · with slot })) 0 cell.guard effect).1,
        (Call.affect (world.modifyCell call.cell ({ · with slot })) 0 cell.guard effect).2 ++
          .call { call with stage := .calling later } :: below) := by
  let active : Call := { call with stage := .calling phase }
  have hstage : active.stage.step cell.kind cell.guard active.action world.facts world.shape
      cell.slot = some (slot, .calling later, effect) := Stage.step_calling_of_step hstep
  exact next_call hcell hstage

/-- A call on a slot gets to its end within its bound, and the thread does nothing else before. -/
theorem path_of_leads {world : World β} {call : Call} {below : List Frame} {cell : Cell}
    {slot last : Slot} {phase : Phase} {acquired : List ObjectId} {result : Yield}
    (hleads : phase.Leads slot acquired last result)
    (hcell : world.cell? call.cell = some cell) (hslot : cell.slot = slot) :
    ∃ count ≤ phase.cost slot, Path next (Amid call below) count
      (world, .call { call with stage := .calling phase } :: below)
      ((world.acquireAll 0 acquired).modifyCell call.cell ({ · with slot := last }),
        .call { call with stage := .received cell.kind result call.action } :: below) := by
  induction hleads generalizing world cell with
  | done slot result =>
    subst hslot
    refine ⟨1, le_rfl, .last ?_⟩
    simp [next, Frame.step, Call.step, hcell, Stage.step, World.acquireAll]
  | @quiet slot between last phase later acquired result hstep hrest ih =>
    subst hslot
    let after := world.modifyCell call.cell ({ · with slot := between })
    have hafter : after.cell? call.cell = some { cell with slot := between } :=
      World.cell?_modifyCell hcell
    obtain ⟨count, hcount, hpath⟩ := ih hafter rfl
    rw [World.acquireAll_modifyCell, World.modifyCell_slot] at hpath
    have hless := Phase.cost_step hstep
    rw [(Phase.Leads.quiet hstep hrest).polls, Bool.toNat_false, add_zero] at hless
    exact ⟨count + 1, hcount.trans_lt hless, .cons (next_phase hcell hstep) ⟨later, rfl⟩ hpath⟩
  | @acquire slot between last phase later obj acquired result hstep hrest ih =>
    subst hslot
    let after := (world.acquire 0 obj).modifyCell call.cell ({ · with slot := between })
    have hafter : after.cell? call.cell = some { cell with slot := between } :=
      World.cell?_modifyCell hcell
    obtain ⟨count, hcount, hpath⟩ := ih hafter rfl
    rw [World.acquireAll_modifyCell, World.modifyCell_slot] at hpath
    have hless := Phase.cost_step hstep
    rw [(Phase.Leads.acquire hstep hrest).polls, Bool.toNat_false, add_zero] at hless
    exact ⟨count + 1, hcount.trans_lt hless, .cons (next_phase hcell hstep) ⟨later, rfl⟩ hpath⟩

end Solo

/-! ## The machine -/

theorem World.cells_acquireAll (world : World β) (thread : ℕ) (units : List ObjectId) :
    (world.acquireAll thread units).cells = world.cells := by
  induction units generalizing world with
  | nil => rfl
  | cons unit units ih => exact ih (world.acquire thread unit)

/-- What a call on a slot leaves of the world if it takes a single step: the units that it acquires
are there, and the cell has the next register. -/
def World.leap (world : World β) (name : String) (register : Register) (errand : Errand) :
    World β :=
  (world.acquireAll 0 (errand.acquired register)).modifyCell name
    ({ · with slot := (register.after (errand.settle register).2).slot })

namespace World

variable {world : World β} {name other : String} {cell : Cell}

theorem cell?_leap (hcell : world.cell? name = some cell) (register : Register) (errand : Errand) :
    (world.leap name register errand).cell? name =
      some { cell with slot := (register.after (errand.settle register).2).slot } := by
  apply cell?_modifyCell
  rw [cell?, cells_acquireAll]
  exact hcell

theorem cell?_leap_of_ne (hne : other ≠ name) (register : Register) (errand : Errand) :
    (world.leap name register errand).cell? other = world.cell? other := by
  rw [leap, cell?_modifyCell_of_ne hne, cell?, cells_acquireAll, cell?]

theorem register?_leap (hcell : world.cell? name = some cell) (register : Register)
    (errand : Errand) : (world.leap name register errand).register? name =
      some (register.after (errand.settle register).2) := by
  rw [register?, cell?_leap hcell, Option.map_some]
  rfl

end World

/-- The call goes on with what the register yields. -/
def Call.leap (call : Call) (cell : Cell) (errand : Errand) : Call :=
  { call with stage := .received cell.kind (errand.settle cell.slot.register).1 call.action }

namespace Solo

/-- The next step of the only thread, where a call on a slot takes a single step from the register
that it finds to the one that it leaves. -/
def leap (solo : Solo β) : Option (Solo β) :=
  match solo with
  | (world, .call call :: below) =>
      match call.stage with
      | .calling (.locking errand) => do
          let cell ← world.cell? call.cell
          pure (world.leap call.cell cell.slot.register errand,
            .call (call.leap cell errand) :: below)
      | _ => solo.next
  | _ => solo.next

variable {world : World β} {call : Call} {below : List Frame} {cell : Cell} {errand : Errand}

theorem leap_locking {solo : Solo β} (hagenda : solo.2 = .call call :: below)
    (hstage : call.stage = .calling (.locking errand))
    (hcell : solo.1.cell? call.cell = some cell) :
    solo.leap = some (solo.1.leap call.cell cell.slot.register errand,
      .call (call.leap cell errand) :: below) := by
  obtain ⟨world, agenda⟩ := solo
  obtain rfl : agenda = .call call :: below := hagenda
  have hcell : world.cell? call.cell = some cell := hcell
  simp [leap, hstage, hcell]

/-- Nothing else has changed. -/
theorem leap_eq_next {solo : Solo β} (hother : ∀ call below errand,
    solo.2 = .call call :: below → call.stage ≠ .calling (.locking errand)) :
    leap solo = solo.next := by
  unfold leap
  split
  · split
    · rename_i errand hstage
      exact absurd hstage (hother _ _ errand rfl)
    · rfl
  · rfl

/-- Either a call on a slot takes its single step, or nothing is different. -/
theorem leap_cases {solo later : Solo β} (hleap : solo.leap = some later) :
    (∃ call below errand cell, solo.2 = .call call :: below ∧
      call.stage = .calling (.locking errand) ∧ solo.1.cell? call.cell = some cell ∧
      later = (solo.1.leap call.cell cell.slot.register errand,
        .call (call.leap cell errand) :: below)) ∨
    ((∀ call below errand, solo.2 = .call call :: below → call.stage ≠ .calling (.locking errand)) ∧
      solo.next = some later) := by
  by_cases hlocking : ∃ call below errand, solo.2 = .call call :: below ∧
      call.stage = .calling (.locking errand)
  · obtain ⟨call, below, errand, hagenda, hstage⟩ := hlocking
    left
    cases hcell : solo.1.cell? call.cell with
    | none =>
      obtain ⟨world, agenda⟩ := solo
      obtain rfl : agenda = .call call :: below := hagenda
      have hcell : world.cell? call.cell = none := hcell
      simp [leap, hstage, hcell] at hleap
    | some cell =>
      rw [leap_locking hagenda hstage hcell] at hleap
      exact ⟨call, below, errand, cell, hagenda, hstage, hcell, (Option.some.inj hleap).symm⟩
  · have hother : ∀ call below errand,
        solo.2 = .call call :: below → call.stage ≠ .calling (.locking errand) :=
      fun call below errand hagenda hstage => hlocking ⟨call, below, errand, hagenda, hstage⟩
    rw [leap_eq_next hother] at hleap
    exact .inr ⟨hother, hleap⟩

/-- The single step is where all the steps of the call lead to. -/
theorem path_of_locking (hcell : world.cell? call.cell = some cell)
    (hplain : cell.slot = cell.slot.register.slot)
    (hstage : call.stage = .calling (.locking errand)) (hfresh : errand.Fresh) :
    ∃ count ≤ 10, Path next (Amid call below) count (world, .call call :: below)
      (world.leap call.cell cell.slot.register errand,
        .call (call.leap cell errand) :: below) := by
  have hleads := Phase.leads_locking hfresh cell.slot.register
  obtain ⟨count, hcount, hpath⟩ :=
    @path_of_leads _ _ world call below cell _ _ _ _ _ hleads hcell hplain
  rw [← hstage] at hpath
  exact ⟨count, hcount.trans_eq (Phase.cost_locking hfresh _), hpath⟩

end Solo

end SharedCell
