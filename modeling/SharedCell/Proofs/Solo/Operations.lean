import Mathlib
import SharedCell.Proofs.Solo.Arguments

/-!
# Operations that make a call

An operation on a cell that passes its checks makes one call, and keeps its arguments' handles and
the cell in use until it ends.  So what it does, what it leaves and what it replies follow from the
conduct of the call: the reply is that to the outcome, and an operation that stores nothing and
yields no unit leaves the world as it was but for the log.
-/

namespace SharedCell

variable {β : Type} [Resident β] {world next : World β} {effects : List Effect} {reply : Reply}

/-! ## Outcomes -/

namespace Solo

variable {call : Call} {outcome : Outcome}

/-- A call that has its outcome hands over its units and leaves its handles and its cell. -/
theorem ends_outcome (hstage : call.stage = .finished outcome) (hcopy : call.action ≠ .copy)
    (hfreeze : call.action ≠ .freeze) :
    Ends (world, [.call call]) next reply ↔
      Tidies world ((outcome.units.flatMap fun unit => Operation.delivery call.target (some unit)) ++
        (call.holders.map .endUse ++ [.leaveCell call.cell])) next ∧ reply = outcome.reply := by
  have hsettle : call.settle world outcome =
      (world, outcome.units.flatMap fun unit => Operation.delivery call.target (some unit),
        outcome.reply) := by
    unfold Call.settle
    split
    · rename_i haction _
      exact absurd haction hcopy
    · rename_i haction
      exact absurd haction hfreeze
    · rfl
  have hconclude : call.conclude world outcome = (world,
      .tidy ((outcome.units.flatMap fun unit => Operation.delivery call.target (some unit)) ++
        (call.holders.map .endUse ++ [.leaveCell call.cell])) outcome.reply) := by
    rw [Call.conclude, hsettle, ← List.append_assoc]
  rw [ends_step (next_finished [] hstage), hconclude]
  exact ends_tidy

end Solo

namespace World

omit [Resident β] in
theorem lend_useCell (world : World β) (ids : List ℕ) (name : String) (looks : Bool) :
    (world.lend ids).useCell name 0 looks = (world.useCell name 0 looks).lend ids := rfl

omit [Resident β] in
theorem lend_modifyCell (world : World β) (ids : List ℕ) (name : String) (change : Cell → Cell) :
    (world.lend ids).modifyCell name change = (world.modifyCell name change).lend ids := rfl

/-- The world in which handles and a cell are in use. -/
def engage (world : World β) (name : String) (holders : List ℕ) (looks : Bool) : World β :=
  (world.lend holders).useCell name 0 looks

theorem undergo_engage (world : World β) (guard : Guard) (effects : List Effect) (name : String)
    (holders : List ℕ) (looks : Bool) :
    (world.engage name holders looks).undergo guard effects =
      (world.undergo guard effects).engage name holders looks := by
  rw [engage, useCell, undergo_modifyCell, undergo_lend]
  rfl

omit [Resident β] in
/-- Whether a cell is in use can be told apart from what is in its slot. -/
theorem engage_writeSlot (world : World β) (name : String) (holders : List ℕ) (looks : Bool)
    (slot : Slot) : (world.engage name holders looks).modifyCell name ({ · with slot }) =
      (world.modifyCell name ({ · with slot })).engage name holders looks := by
  have hcommute (cell : Cell) :
      { cell.use 0 looks with slot } = ({ cell with slot } : Cell).use 0 looks := by
    unfold Cell.use
    repeat' split
    all_goals rfl
  rw [engage, engage, useCell, useCell, modifyCell_modifyCell, lend_modifyCell, lend_modifyCell,
    modifyCell_modifyCell]
  simp only [hcommute]

end World

/-- Chores are done while a cell and handles are in use, and then these are given up. -/
def Solo.Closes (world : World β) (name : String) (holders : List ℕ) (looks : Bool)
    (chores : List Chore) (next : World β) : Prop :=
  Tidies (world.engage name holders looks) (chores ++ (holders.map .endUse ++ [.leaveCell name]))
    next

/-- The units that a call gives back or hands over in the end. -/
def Conduct.chores (target : Option String) (conduct : Conduct) : List Chore :=
  conduct.spare.toList.map .release ++
    conduct.outcome.units.flatMap fun unit => Operation.delivery target (some unit)

/-- What was in use is given up, and nothing has changed. -/
theorem Solo.closes_nil {name : String} {holders : List ℕ} {looks : Bool} {cell : Cell}
    (hids : (world.holders.map Holder.id).Nodup) (hnames : (world.cells.map Prod.fst).Nodup)
    (hcell : world.cell? name = some cell) (hunused : cell.Unused)
    (hlends : ∀ id ∈ holders, world.Lends id) :
    Closes world name holders looks [] next ↔ next = world := by
  have hleave : (Chore.leaveCell name).perform 0 (world.useCell name 0 looks) = (world, []) := by
    rw [Chore.perform, World.leaveCell_useCell hnames hcell hunused]
  have hholders : (world.useCell name 0 looks).holders = world.holders := rfl
  have hlent : ∀ id ∈ holders, (world.useCell name 0 looks).Lends id :=
    fun id hid => ⟨(hlends id hid).holder⟩
  rw [Closes, List.nil_append, World.engage, World.lend_useCell,
    Solo.tidies_lent (by rwa [hholders]) hlent, Solo.Tidies, hleave]
  simp [Solo.clears_nil, Solo.Tidies]

/-- A unit is given back before the others are handed over. -/
theorem Solo.concluding_closes {call : Call} (hcopy : call.action ≠ .copy)
    (hfreeze : call.action ≠ .freeze) (guard : Guard) (conduct : Conduct) :
    Concluding (world.engage call.cell call.holders call.action.looks) call guard conduct effects
        next reply ↔
      effects = conduct.effects ∧ reply = conduct.outcome.reply ∧
        Closes (world.undergo guard conduct.quiet) call.cell call.holders call.action.looks
          (conduct.chores call.target) next := by
  have hends (between : World β) := @ends_outcome β _ between next reply
    { call with stage := .finished conduct.outcome } conduct.outcome rfl hcopy hfreeze
  rw [Concluding, World.undergo_engage, Closes, Conduct.chores]
  refine and_congr_right fun _ => ?_
  simp only [hends]
  cases conduct.spare with
  | none =>
    simp only [World.letGo?, clears_nil, exists_eq_left, Option.toList_none, List.map_nil,
      List.nil_append]
    exact and_comm
  | some unit =>
    simp only [World.letGo?, Option.toList_some, List.map_cons, List.map_nil, List.cons_append,
      List.nil_append, Tidies, Chore.perform, ← and_assoc]
    rw [and_comm, exists_and_right]

namespace Operation

/-- What an operation does on its way, and what it comes to. -/
def Does (op : Operation) (world : World β) (effects : List Effect) (next : World β)
    (reply : Reply) : Prop :=
  Solo.Does ((op.start 0 world).1, [(op.start 0 world).2]) effects next reply

variable {op : Operation}

theorem Performs.does (hperforms : op.Performs world next reply) :
    ∃ effects, op.Does world effects next reply :=
  Solo.Ends.does (performs_iff.mp hperforms)

/-- The operation makes a call on a cell, and uses the cell and some handles for it. -/
structure Calls (op : Operation) (world : World β) (cell : Cell) (call : Call) : Prop where
  found : world.cell? call.cell = some cell
  unused : cell.Unused
  start : op.start 0 world = (world.engage call.cell call.holders call.action.looks, .call call)
  stage : call.stage = call.action.opening cell.kind
  lends : ∀ id ∈ call.holders, world.Lends id

namespace Calls

variable {stakes : Stakes} {cell : Cell} {call : Call}

/-- A handle that an argument stands for can be lent. -/
theorem onCell {name : String} {verb : Verb} {new expected : Arg} {target copy : Option String}
    {compared fresh : Option Holder} {wanted : Option ObjectId} {action : Action}
    (hcell : world.cell? name = some cell) (hunused : cell.Unused)
    (hnew : (Attempt.arg new : Attempt β (Option Holder)).run world = .ok (fresh, world))
    (hcompared : (comparand cell.kind verb expected : Attempt β _).run world =
      .ok ((compared, wanted), world))
    (hcopy : (copyName cell.kind verb : Attempt β (Option String)).run world = .ok (copy, world))
    (haction : action? cell.kind wanted (fresh.map (·.unit)) verb = some action)
    (hlends : ∀ holder, some holder ∈ [compared, fresh] → world.Lends holder.id) :
    (onCell (some name) verb new expected target).Calls world cell
      { cell := name, action, stage := action.opening cell.kind, target, copy,
        holders := [compared, fresh].filterMap (·.map (·.id)) } where
  found := hcell
  unused := hunused
  start := start_onCell hcell (hunused.bars 0 action.looks) hnew hcompared hcopy haction
  stage := rfl
  lends id hid := by
    obtain ⟨found, hfound, hid⟩ := List.mem_filterMap.mp hid
    obtain ⟨holder, rfl, rfl⟩ := Option.map_eq_some_iff.mp hid
    exact hlends holder hfound

theorem freezeCell {name : String} (hcell : world.cell? name = some cell)
    (hkind : cell.kind = .freezable) (hunused : cell.Unused) :
    (freezeCell (some name)).Calls world cell
      (Solo.freezing name (.calling (.locking (.read 0)))) where
  found := hcell
  unused := hunused
  start := by
    rw [start_freezeCell hcell hkind hunused, World.engage]
    exact congrArg (fun lent => (World.useCell lent name 0 false, _)) world.lend_nil.symm
  stage := by
    rw [hkind]
    rfl
  lends id hid := absurd hid List.not_mem_nil

variable (hcalls : op.Calls world cell call) (hsound : world.Sound stakes)

include hcalls hsound

/-- The cell in use has the kind, the guard and the slot of the cell. -/
theorem cell_engaged (looks : Bool) :
    (world.engage call.cell call.holders looks).cell? call.cell = some (cell.use 0 looks) ∧
      ((world.engage call.cell call.holders looks).cells.map Prod.fst).Nodup := by
  refine ⟨World.cell?_modifyCell hcalls.found, ?_⟩
  rw [World.engage, World.useCell, World.names_modifyCell]
  exact hsound.housed.names

/-- What was in use is given up after quiet effects. -/
theorem closes_undergone (guard : Guard) (quiet : List Effect) (slot : Slot) (looks : Bool) :
    Solo.Closes ((world.modifyCell call.cell ({ · with slot })).undergo guard quiet) call.cell
        call.holders looks [] next ↔
      next = (world.modifyCell call.cell ({ · with slot })).undergo guard quiet := by
  have hholders : ((world.modifyCell call.cell ({ · with slot })).undergo guard quiet).holders =
      world.holders := World.holders_undergo _ guard quiet
  refine Solo.closes_nil (by rw [hholders]; exact hsound.held.ids) ?_
    ((World.cell?_undergo _ guard quiet call.cell).trans (World.cell?_modifyCell hcalls.found))
    (hcalls.unused.write slot)
    fun id hid => ⟨by rw [hholders]; exact (hcalls.lends id hid).holder⟩
  rw [World.cells_undergo, World.names_modifyCell]
  exact hsound.housed.names

/-- So it is if the slot is left alone. -/
theorem closes_quiet (guard : Guard) (quiet : List Effect) (looks : Bool) :
    Solo.Closes (world.undergo guard quiet) call.cell call.holders looks [] next ↔
      next = world.undergo guard quiet := by
  have hself : world.modifyCell call.cell ({ · with slot := cell.slot }) = world :=
    World.modifyCell_self hsound.housed.names hcalls.found rfl
  have hcloses := @closes_undergone β _ world next op stakes cell call hcalls hsound guard quiet
    cell.slot looks
  rwa [hself] at hcloses

/-- A rejected operation leaves the world as it was, but for what is reported. -/
theorem does_refused {new : ObjectId} (hkind : cell.kind = .atomic)
    (hnew : call.action.new? = some new)
    (hrefuses : cell.guard.accepts (world.facts new) = false) :
    op.Does world effects next reply ↔ effects = [.ask new, .reject new] ∧
      next = world.undergo cell.guard [.ask new, .reject new] ∧
        reply = .fault (.unshareable new) := by
  obtain ⟨hcell, hnames⟩ := hcalls.cell_engaged hsound call.action.looks
  have hstage : call.stage = .asking new (call.action.errand .atomic) := by
    rw [hcalls.stage, hkind]
    simp only [Action.opening, hnew]
  have hplain : call.action ≠ .copy ∧ call.action ≠ .freeze := by
    constructor <;> intro haction <;> rw [haction] at hnew <;> cases hnew
  have hcloses := @closes_quiet β _ world next op stakes cell call hcalls hsound cell.guard
    [.ask new, .reject new] call.action.looks
  have hrefused := @Solo.does_refused β _ (world.engage call.cell call.holders call.action.looks)
    next reply (cell.use 0 call.action.looks) call hnames hcell new _ hstage
    (by rw [Cell.use_guard]; exact hrefuses) effects
  rw [Cell.use_guard, Solo.concluding_closes hplain.1 hplain.2] at hrefused
  rw [Does, hcalls.start]
  refine hrefused.trans (and_congr_right fun _ => ?_)
  exact and_comm.trans (and_congr_left fun _ => hcloses)

variable [Lawful β] [Reticent β] (hplain : cell.slot = cell.slot.register.slot)

include hplain

/-- What an operation does is what the conduct of its call says. -/
theorem does_iff :
    let conduct :=
      call.action.conduct cell.kind cell.guard world.facts world.shape cell.slot.register
    op.Does world effects next reply ↔
      Solo.Concluding ((world.modifyCell call.cell
        ({ · with slot := (cell.slot.register.after conduct.stored).slot })).engage call.cell
          call.holders call.action.looks) call cell.guard conduct effects next reply := by
  obtain ⟨hcell, hnames⟩ := hcalls.cell_engaged hsound call.action.looks
  have hcall := @Solo.does_call β _ (world.engage call.cell call.holders call.action.looks) next
    reply (cell.use 0 call.action.looks) effects _ _ call hnames hcell
    (by rw [Cell.use_slot]; exact hplain) (by rw [Cell.use_kind]; exact hcalls.stage)
  dsimp only at hcall
  rw [Cell.use_kind, Cell.use_guard, Cell.use_slot, World.engage_writeSlot] at hcall
  rw [Does, hcalls.start]
  exact hcall

/-- What an operation does, what it leaves and what it replies, unless it copies the cell or freezes
it. -/
theorem does_closes (hcopy : call.action ≠ .copy) (hfreeze : call.action ≠ .freeze)
    {conduct : Conduct} (hconduct : call.action.conduct cell.kind cell.guard world.facts world.shape
      cell.slot.register = conduct) :
    op.Does world effects next reply ↔ effects = conduct.effects ∧ reply = conduct.outcome.reply ∧
      Solo.Closes ((world.modifyCell call.cell ({ · with
        slot := (cell.slot.register.after conduct.stored).slot })).undergo cell.guard conduct.quiet)
        call.cell call.holders call.action.looks (conduct.chores call.target) next := by
  have hdoes := @does_iff β _ world next effects reply op stakes cell call hcalls hsound _ _ hplain
  rw [hconduct] at hdoes
  exact hdoes.trans (Solo.concluding_closes hcopy hfreeze cell.guard conduct)

end Calls

end Operation

end SharedCell
