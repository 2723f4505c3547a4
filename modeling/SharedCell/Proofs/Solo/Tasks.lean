import Mathlib
import SharedCell.Proofs.Solo.CellResults
import SharedCell.Proofs.Twins.Begin

/-!
# Tasks

What an operation on a cell is about is settled by the cell, by what its arguments stand for, and by
whether the name of a copy is free.  From this, and from what objects are like, follows all that it
comes to; in particular, counts have no say in it.
-/

namespace SharedCell

open Text

/-- What an operation on a cell is about once it has passed its checks, or has failed them. -/
inductive Task where
  /-- The operation has its reply at once. -/
  | answer (reply : Reply)
  | call (action : Action)
  /-- The cell is consumed, and its content goes where units go. -/
  | consume (reply : Reply)

/-- Whether there is no cell of a name. -/
def World.vacant {β : Type} (world : World β) (name : String) : Bool :=
  (world.cell? name).isNone

namespace Operation

/-- The cell that an operation is on. -/
def on? : Operation → Option String
  | .dropCell cell | .intoInner cell _ | .freezeCell cell | .onCell cell .. => cell
  | _ => none

/-- The handle that receives the unit of an operation. -/
def target? : Operation → Option String
  | .intoInner _ target | .onCell _ _ _ _ target => target
  | _ => none

/-- The name of the cell that an operation copies its cell to. -/
def copy? : Operation → Option String
  | .onCell _ (.cloneCell copy) .. => copy
  | _ => none

/-- The arguments that an operation looks up. -/
def arguments : Operation → List Arg
  | .onCell _ verb new expected _ =>
      match verb with
      | .compareAndSwap | .compareAndSet | .swap | .swapIf => [new, expected]
      | _ => [new]
  | _ => []

/-- What an argument stands for by the names of handles. -/
def resolve (units : String → Option ObjectId) : Arg → Except Fault (Option ObjectId)
  | .empty => .ok none
  | .named name =>
      match units name with
      | none => .error .unknownHandle
      | some unit => .ok (some unit)
  | .malformed => .error .malformed

/-- What a content is compared with, if anything. -/
def resolveWanted (kind : CellKind) (units : String → Option ObjectId) (verb : Verb)
    (expected : Arg) : Except Fault (Option ObjectId) :=
  match comparing kind verb with
  | none => .ok none
  | some _ => resolve units expected

/-- What is asked of a cell, unless the cell is to be copied. -/
def plainTask (cell : Cell) (wanted fresh : Option ObjectId) (verb : Verb) : Task :=
  match cell.kind, verb with
  | .atomic, .guard => .answer (.text cell.guard.name)
  | .atomic, .debug none | .freezable, .debug none => .answer (.fault .malformed)
  | kind, verb =>
      match action? kind wanted fresh verb with
      | none => .answer (.fault .unsupported)
      | some action => .call action

/-- A cell can be copied to a name that is free. -/
def copyTask (vacant : String → Bool) : Option String → Task
  | none => .answer (.fault .malformed)
  | some name => if vacant name then .call .copy else .answer (.fault .nameTaken)

/-- What is asked of a cell. -/
def verbTask (cell : Cell) (units : String → Option ObjectId) (vacant : String → Bool)
    (verb : Verb) (new expected : Arg) : Task :=
  match resolve units new, resolveWanted cell.kind units verb expected with
  | .error fault, _ | .ok _, .error fault => .answer (.fault fault)
  | .ok fresh, .ok wanted =>
      match cell.kind, verb with
      | .atomic, .cloneCell copy => copyTask vacant copy
      | _, _ => plainTask cell wanted fresh verb

/-- What an operation on a cell is about. -/
def task (cell : Cell) (units : String → Option ObjectId) (vacant : String → Bool) :
    Operation → Task
  | .dropCell _ => .consume .ok
  | .intoInner _ _ =>
      if cell.kind = .freezable then .answer (.fault .unsupported)
      else .consume (.unit cell.slot.content)
  | .freezeCell _ =>
      if cell.kind = .freezable then .call .freeze else .answer (.fault .unsupported)
  | .onCell _ verb new expected _ => verbTask cell units vacant verb new expected
  | _ => .answer .ok

/-- What a slot is compared with is a handle, not the address of an object. -/
def ByName : Operation → Prop
  | .onCell _ .swap _ (.named name) _ | .onCell _ .swapIf _ (.named name) _ =>
      name.startsWith "@" = false
  | _ => True

variable {β : Type} [Resident β] {world next : World β} {op : Operation} {name : String}
  {cell : Cell} {reply : Reply}

/-- The handle that an argument names. -/
def Finds (world : World β) (argument : Arg) (holder : Holder) : Prop :=
  ∃ name, argument = .named name ∧ world.holder? name = some holder

/-- The objects that the arguments of an operation stand for. -/
def argued (op : Operation) (world : World β) : Set ObjectId :=
  {obj | ∃ name, .named name ∈ op.arguments ∧ world.unit? name = some obj}

/-- An operation begins with its task. -/
def Begins (op : Operation) (world : World β) (name : String) (cell : Cell) : Task → Prop
  | .answer reply => op.start 0 world = (world, .tidy [] reply)
  | .call action =>
      (∀ copy, op.copy? = some copy → world.cell? copy = none) ∧ ∃ holders,
        op.Calls world cell
            { cell := name, action, stage := action.opening cell.kind, target := op.target?,
              copy := op.copy?, holders } ∧
          world.Covers holders (op.argued world)
  | .consume reply =>
      op.start 0 world =
        (world.eraseCell name, .tidy (delivery op.target? cell.slot.content) reply)

theorem start_of_error {fault : Fault} (hrun : (begin? 0 op).run world = .error fault) :
    op.start 0 world = (world, .tidy [] (.fault fault)) := by
  rw [start, hrun]

theorem start_of_ok {frame : Frame} (hrun : (begin? 0 op).run world = .ok (frame, next)) :
    op.start 0 world = (next, frame) := by
  rw [start, hrun]

/-! ## Arguments -/

section Arguments

open Attempt

variable (hresting : world.Resting)

include hresting

theorem named_run_eq (name : String) : (named name : Attempt β Holder).run world =
    match world.holder? name with
    | none => .error .unknownHandle
    | some holder => .ok (holder, world) := by
  simp only [named, StateT.run_bind, StateT.run_get, pure_bind]
  cases hfound : world.holder? name with
  | none => rfl
  | some holder =>
    simp only [hresting.shared holder (List.mem_of_find?_eq_some hfound), Bool.false_eq_true,
      if_false]
    rfl

theorem lends_of_finds {argument : Arg} {holder : Holder} (hfinds : Finds world argument holder) :
    world.Lends holder.id := by
  obtain ⟨name, -, hfound⟩ := hfinds
  have hname : holder.name = some name := by simpa using List.find?_some hfound
  have hholder := List.mem_of_find?_eq_some hfound
  exact ⟨holder, hholder, rfl, by rw [hname]; rfl, hresting.shared holder hholder⟩

/-- Handles that arguments name have the units that the arguments stand for. -/
theorem covers_of_finds {found : List (Option Holder)}
    (hfinds : ∀ holder, some holder ∈ found → ∃ argument ∈ op.arguments,
      Finds world argument holder) :
    world.Covers (found.filterMap (·.map (·.id))) (op.argued world) := by
  intro id hid
  obtain ⟨_, hmem, hsome⟩ := List.mem_filterMap.mp hid
  obtain ⟨holder, rfl, rfl⟩ := Option.map_eq_some_iff.mp hsome
  obtain ⟨_, hargument, name, rfl, hholder⟩ := hfinds holder hmem
  have hheld := hresting.sound.held
  have hpresent := List.mem_of_find?_eq_some hholder
  refine ⟨hheld.fresh holder hpresent, fun other hother hsame => ⟨name, hargument, ?_⟩⟩
  rw [List.inj_on_of_nodup_map hheld.ids hother hpresent hsame, World.unit?, hholder,
    Option.map_some]

/-- An argument is found, or it is known why not. -/
theorem arg_resolve (argument : Arg) :
    match resolve world.unit? argument with
    | .error fault => (arg argument : Attempt β (Option Holder)).run world = .error fault
    | .ok unit => ∃ found, (arg argument : Attempt β (Option Holder)).run world =
        .ok (found, world) ∧ found.map (·.unit) = unit ∧
          ∀ holder, found = some holder → Finds world argument holder := by
  cases argument with
  | empty => exact ⟨none, rfl, rfl, fun _ hnone => nomatch hnone⟩
  | malformed => rfl
  | named name =>
    have hrun := named_run_eq hresting name
    rw [resolve, World.unit?]
    cases hfound : world.holder? name with
    | none =>
      rw [hfound] at hrun
      exact congrArg (Except.map fun found => (some found.1, found.2)) hrun
    | some holder =>
      rw [hfound] at hrun
      refine ⟨some holder, ?_, rfl, ?_⟩
      · exact congrArg (Except.map fun found => (some found.1, found.2)) hrun
      · rintro _ ⟨⟩
        exact ⟨name, rfl, hfound⟩

/-- So is what a content is compared with, if anything. -/
theorem comparand_resolve {kind : CellKind} {verb : Verb} {expected : Arg}
    (hplain : comparing kind verb = some .byAddress → ∀ name, expected = .named name →
      name.startsWith "@" = false) :
    match resolveWanted kind world.unit? verb expected with
    | .error fault => (comparand kind verb expected : Attempt β _).run world = .error fault
    | .ok unit => ∃ found, (comparand kind verb expected : Attempt β _).run world =
        .ok ((found, unit), world) ∧ ∀ holder, found = some holder →
          (comparing kind verb).isSome = true ∧ Finds world expected holder := by
  have hresolve := arg_resolve hresting expected
  unfold comparand resolveWanted
  cases hcomparing : comparing kind verb with
  | none => exact ⟨none, rfl, fun _ hnone => nomatch hnone⟩
  | some compared =>
    cases compared with
    | byHandle =>
      dsimp only
      cases hresolved : resolve world.unit? expected with
      | error fault =>
        rw [hresolved] at hresolve
        exact run_bind_error hresolve
      | ok unit =>
        rw [hresolved] at hresolve
        obtain ⟨found, hfound, rfl, hfinds⟩ := hresolve
        exact ⟨found, run_bind_ok hfound, fun holder hholder => ⟨rfl, hfinds holder hholder⟩⟩
    | byAddress =>
      dsimp only
      cases expected with
      | empty => exact ⟨none, rfl, fun _ hnone => nomatch hnone⟩
      | malformed => rfl
      | named name =>
        have hrun := named_run_eq hresting name
        rw [address, hplain hcomparing name rfl, resolve, World.unit?]
        cases hfound : world.holder? name with
        | none =>
          rw [hfound] at hrun
          exact run_bind_error (run_bind_error hrun)
        | some holder =>
          rw [hfound] at hrun
          exact ⟨none, run_bind_ok (run_bind_ok hrun), fun _ hnone => nomatch hnone⟩

/-! ## First steps -/

omit [Resident β] hresting in
theorem copyName_eq {kind : CellKind} {verb : Verb}
    (hclone : ∀ copy, kind = .atomic → verb ≠ .cloneCell copy) :
    (copyName kind verb : Attempt β (Option String)) = pure none := by
  unfold copyName
  split
  · rename_i copy
    exact absurd rfl (hclone copy rfl)
  · rfl

variable (hcell : world.cell? name = some cell)

include hcell

/-- The checks of an operation on a cell that is there come down to those of its arguments. -/
theorem begin_verb (verb : Verb) (new expected : Arg) (target : Option String) :
    (begin? 0 (onCell (some name) verb new expected target) : Attempt β Frame).run world =
      (do
        let new ← arg new
        let (holder, wanted) ← comparand cell.kind verb expected
        let copy ← copyName cell.kind verb
        match cell.kind, verb with
        | .atomic, .guard => answer (.text cell.guard.name)
        | .atomic, .debug none | .freezable, .debug none => throw .malformed
        | _, _ =>
            match action? cell.kind wanted (new.map (·.unit)) verb with
            | none => throw .unsupported
            | some action =>
                pure (.call (← makeCall 0 name cell action target copy [holder, new])) :
        Attempt β Frame).run world := by
  have hfound : (Attempt.cell (some name) : Attempt β (String × Cell)).run world =
      .ok ((name, cell), world) := by
    simp only [Attempt.cell, field, pure_bind, StateT.run_bind, StateT.run_get, hcell]
    rfl
  have hrequire : (require (!cell.bars 0 verb.looks) .busy : Attempt β Unit).run world =
      .ok ((), world) := by
    rw [(hresting.sound.cell_resting hcell).1.bars 0 verb.looks]
    rfl
  rw [begin?, startOnCell, run_bind_ok hfound]
  exact (run_bind_ok hrequire).trans rfl

omit [Resident β] hresting hcell in
theorem new_mem {found target : Option String} {verb : Verb} {new expected : Arg} :
    new ∈ (onCell found verb new expected target).arguments := by
  cases verb <;> exact List.mem_cons_self

omit [Resident β] hresting hcell in
theorem expected_mem {found target : Option String} {kind : CellKind} {verb : Verb}
    {new expected : Arg} (hcomparing : (comparing kind verb).isSome = true) :
    expected ∈ (onCell found verb new expected target).arguments := by
  cases verb <;> first | exact List.mem_cons_of_mem new List.mem_cons_self | cases hcomparing

/-! ### Arguments that are found -/

omit hresting hcell [Resident β] in
theorem copyName_free {copy : String} (hfree : world.cell? copy = none) :
    (copyName .atomic (.cloneCell (some copy)) : Attempt β (Option String)).run world =
      .ok (some copy, world) := by
  simp only [copyName, newCellName, field, require, pure_bind, StateT.run_map, StateT.run_bind,
    StateT.run_get, hfree]
  rfl

omit hresting hcell [Resident β] in
theorem copyName_taken {copy : String} (htaken : (world.cell? copy).isNone = false) :
    (copyName .atomic (.cloneCell (some copy)) : Attempt β (Option String)).run world =
      .error .nameTaken := by
  simp only [copyName, newCellName, field, require, pure_bind, StateT.run_map, StateT.run_bind,
    StateT.run_get, htaken]
  rfl

section Found

variable {verb : Verb} {new expected : Arg} {target : Option String}
  {compared fresh : Option Holder} {wanted : Option ObjectId}
  (hrun : (arg new : Attempt β (Option Holder)).run world = .ok (fresh, world))
  (hcompared : (comparand cell.kind verb expected : Attempt β _).run world =
    .ok ((compared, wanted), world))
  (hfinds : ∀ holder, some holder ∈ [compared, fresh] →
    ∃ argument ∈ (onCell (some name) verb new expected target).arguments,
      Finds world argument holder)

include hrun hcompared

/-- What remains is the check of the name of a copy. -/
theorem begin_found :
    (begin? 0 (onCell (some name) verb new expected target) : Attempt β Frame).run world =
      (do
        let copy ← copyName cell.kind verb
        match cell.kind, verb with
        | .atomic, .guard => answer (.text cell.guard.name)
        | .atomic, .debug none | .freezable, .debug none => throw .malformed
        | _, _ =>
            match action? cell.kind wanted (fresh.map (·.unit)) verb with
            | none => throw .unsupported
            | some action =>
                pure (.call (← makeCall 0 name cell action target copy [compared, fresh])) :
        Attempt β Frame).run world := by
  rw [begin_verb hresting hcell, run_bind_ok hrun, run_bind_ok hcompared]

include hfinds

theorem calls_found {copy : Option String} {action : Action}
    (hcopy : (copyName cell.kind verb : Attempt β _).run world = .ok (copy, world))
    (haction : action? cell.kind wanted (fresh.map (·.unit)) verb = some action) :
    ∃ holders, (onCell (some name) verb new expected target).Calls world cell
        { cell := name, action, stage := action.opening cell.kind, target, copy, holders } ∧
      world.Covers holders ((onCell (some name) verb new expected target).argued world) :=
  ⟨_, .onCell hcell (hresting.sound.cell_resting hcell).1 hrun hcompared hcopy haction
    fun holder hholder =>
      have ⟨_, _, hfound⟩ := hfinds holder hholder
      lends_of_finds hresting hfound, covers_of_finds hresting hfinds⟩

/-- A copy is made unless its name is missing or taken. -/
theorem begins_copy {copy : Option String} (hkind : cell.kind = .atomic)
    (hverb : verb = .cloneCell copy) :
    (onCell (some name) verb new expected target).Begins world name cell
      (copyTask world.vacant copy) := by
  subst hverb
  have hbegin := @begin_found _ _ _ _ _ hresting hcell _ _ _ target _ _ _ hrun hcompared
  rw [hkind] at hbegin
  cases copy with
  | none => exact start_of_error hbegin
  | some copy =>
    rw [copyTask]
    cases hvacant : world.vacant copy with
    | true =>
      have hfree : world.cell? copy = none := Option.isNone_iff_eq_none.mp hvacant
      refine ⟨?_, calls_found hresting hcell hrun hcompared hfinds ?_ (by rw [hkind]; rfl)⟩
      · rintro _ ⟨⟩
        exact hfree
      · rw [hkind]
        exact copyName_free hfree
    | false =>
      rw [run_bind_error (copyName_taken hvacant)] at hbegin
      exact start_of_error hbegin

/-- Everything else is asked of the cell itself. -/
theorem begins_plain (hclone : ∀ copy, cell.kind = .atomic → verb ≠ .cloneCell copy) :
    (onCell (some name) verb new expected target).Begins world name cell
      (plainTask cell wanted (fresh.map (·.unit)) verb) := by
  have hnone := @copyName_eq β cell.kind verb hclone
  have hbegin := @begin_found _ _ _ _ _ hresting hcell _ _ _ target _ _ _ hrun hcompared
  rw [hnone, pure_bind] at hbegin
  unfold plainTask
  split
  · rename_i hkind
    rw [hkind] at hbegin
    exact start_of_ok hbegin
  · rename_i hkind
    rw [hkind] at hbegin
    exact start_of_error hbegin
  · rename_i hkind
    rw [hkind] at hbegin
    exact start_of_error hbegin
  · rename_i verb _ _ hguard hdebug hshown
    cases haction : action? cell.kind wanted (fresh.map (·.unit)) verb with
    | none =>
      rw [haction] at hbegin
      split at hbegin
      · exact (hguard ‹_› rfl).elim
      · exact (hdebug ‹_› rfl).elim
      · exact (hshown ‹_› rfl).elim
      · exact start_of_error hbegin
    | some action =>
      have hcopy : (onCell (some name) verb new expected target).copy? = none := by
        cases verb with
        | cloneCell copy =>
          have hkind : cell.kind = .atomic := by
            by_contra hother
            simp [action?, hother] at haction
          exact absurd rfl (hclone copy hkind)
        | _ => rfl
      refine ⟨fun copy hsome => ?_, ?_⟩
      · cases hcopy.symm.trans hsome
      · rw [hcopy]
        exact calls_found hresting hcell hrun hcompared hfinds (by rw [hnone]; rfl) haction

end Found

/-- An operation that asks something of a cell begins with its task. -/
theorem begins_verb {verb : Verb} {new expected : Arg} {target : Option String}
    (hplain : (onCell (some name) verb new expected target).ByName) :
    (onCell (some name) verb new expected target).Begins world name cell
      ((onCell (some name) verb new expected target).task cell world.unit? world.vacant) := by
  have hbegin := begin_verb hresting hcell verb new expected target
  have hnew := arg_resolve hresting new
  rw [task, verbTask]
  cases hfresh : resolve world.unit? new with
  | error fault =>
    rw [hfresh] at hnew
    rw [run_bind_error hnew] at hbegin
    exact start_of_error hbegin
  | ok unit =>
  rw [hfresh] at hnew
  obtain ⟨fresh, hrun, rfl, hfinds⟩ := hnew
  rw [run_bind_ok hrun] at hbegin
  have hbyname : comparing cell.kind verb = some .byAddress → ∀ name, expected = .named name →
      name.startsWith "@" = false := by
    rintro hcomparing handle rfl
    cases verb <;> first | exact hplain | (simp [comparing] at hcomparing)
  have hexpected := comparand_resolve hresting hbyname
  cases hwanted : resolveWanted cell.kind world.unit? verb expected with
  | error fault =>
    rw [hwanted] at hexpected
    rw [run_bind_error hexpected] at hbegin
    exact start_of_error hbegin
  | ok wanted =>
  rw [hwanted] at hexpected
  obtain ⟨compared, hcompared, hfound⟩ := hexpected
  have hnamed (holder : Holder) (hholder : some holder ∈ [compared, fresh]) :
      ∃ argument ∈ (onCell (some name) verb new expected target).arguments,
        Finds world argument holder := by
    rcases List.mem_pair.mp hholder with hsome | hsome
    · obtain ⟨hcomparing, hexpected⟩ := hfound holder hsome.symm
      exact ⟨expected, expected_mem hcomparing, hexpected⟩
    · exact ⟨new, new_mem, hfinds holder hsome.symm⟩
  dsimp only
  split
  · rename_i copy hkind
    exact begins_copy hresting hcell hrun hcompared hnamed hkind rfl
  · rename_i hclone
    exact begins_plain hresting hcell hrun hcompared hnamed hclone

/-- An operation on a cell begins with its task. -/
theorem begins_task (hon : op.on? = some name) (hplain : op.ByName) :
    op.Begins world name cell (op.task cell world.unit? world.vacant) := by
  obtain ⟨hunused, -⟩ := hresting.sound.cell_resting hcell
  have hfound : (Attempt.cell (some name) : Attempt β (String × Cell)).run world =
      .ok ((name, cell), world) := by
    simp only [Attempt.cell, field, pure_bind, StateT.run_bind, StateT.run_get, hcell]
    rfl
  have hrequire : (require cell.idle .busy : Attempt β Unit).run world = .ok ((), world) := by
    rw [Cell.idle, hunused.users, hunused.present]
    rfl
  cases op with
  | dropCell found =>
    obtain rfl : found = some name := hon
    refine start_of_ok ?_
    rw [begin?, startDropCell, run_bind_ok hfound]
    dsimp only
    rw [run_bind_ok hrequire]
    rfl
  | intoInner found target =>
    obtain rfl : found = some name := hon
    rw [task]
    by_cases hkind : cell.kind = .freezable
    · rw [if_pos hkind]
      refine start_of_error ?_
      rw [begin?, startIntoInner, run_bind_ok hfound]
      dsimp only
      rw [hkind]
      rfl
    · rw [if_neg hkind]
      have hsupported : (require (cell.kind != .freezable) .unsupported : Attempt β Unit).run
          world = .ok ((), world) := by
        rw [bne_iff_ne.mpr hkind]
        rfl
      refine start_of_ok ?_
      rw [begin?, startIntoInner, run_bind_ok hfound]
      dsimp only
      rw [run_bind_ok hsupported, run_bind_ok hrequire]
      rfl
  | freezeCell found =>
    obtain rfl : found = some name := hon
    rw [task]
    by_cases hkind : cell.kind = .freezable
    · rw [if_pos hkind]
      refine ⟨fun _ hcopy => absurd hcopy.symm (Option.some_ne_none _), [], ?_,
        fun _ hnone => absurd hnone List.not_mem_nil⟩
      rw [show Action.opening cell.kind .freeze = .calling (.locking (.read 0)) by rw [hkind]; rfl]
      exact .freezeCell hcell hkind hunused
    · rw [if_neg hkind]
      refine start_of_error ?_
      rw [begin?, startFreezeCell, run_bind_ok hfound]
      dsimp only
      rw [decide_eq_false hkind]
      rfl
  | onCell found verb new expected target =>
    obtain rfl : found = some name := hon
    exact begins_verb hresting hcell hplain
  | _ => cases hon

end Arguments

end Operation

/-! ## Results -/

/-- What an operation on a cell comes to that has a task. -/
def Task.result (target copy : Option String) (cell : Cell) (facts : ObjectId → Facts)
    (shape : Layout → ObjectId → Shape) : Task → Result
  | .answer reply => { reply, cell }
  | .call action =>
      let conduct := action.conduct cell.kind cell.guard facts shape cell.slot.register
      action.result target copy (action.written cell facts shape) conduct.outcome
  | .consume reply => { reply, cell := none, given := receipt target cell.slot.content }

namespace Operation

variable {β : Type} [Resident β]

/-- What an operation on a cell comes to in a world. -/
def result (op : Operation) (world : World β) (cell : Cell) : Result :=
  (op.task cell world.unit? world.vacant).result op.target? op.copy? cell world.facts world.shape

end Operation

/-! ## Where units and copies go -/

/-- Whether an action can yield a unit to the caller. -/
def Action.yields : Action → Bool
  | .get | .replace _ | .take | .compareAndSwap .. | .snapshot | .swap .. | .swapIf ..
  | .assign _ => true
  | _ => false

/-- Whether what is asked of a cell can yield a unit to the caller. -/
def Verb.yields : Verb → Bool
  | .get | .replace | .take | .compareAndSwap | .snapshot | .swap | .swapIf | .assign => true
  | _ => false

namespace Action

variable {kind : CellKind} {guard : Guard} {facts : ObjectId → Facts}
  {shape : Layout → ObjectId → Shape} {register : Register} {action : Action}
  {target copy : Option String} {left : Cell} {outcome : Outcome} {name : String}

theorem unit?_conduct (hyields : action.yields = false) (hcopy : action ≠ .copy) :
    (action.conduct kind guard facts shape register).outcome.unit? = none := by
  have hhandling : (action.handling kind guard facts shape register).outcome.unit? = none := by
    rw [handling]
    cases action with
    | set new => simp only [Stage.received, Stage.remainder_giveBack, Outcome.unit?]
    | compareAndSet expected new =>
      simp only [Stage.received, Stage.remainder_giveBack, Outcome.unit?]
    | version => simp only [Stage.received, Stage.remainder_giveBack, Outcome.unit?]
    | showText layout =>
      simp only [Stage.received]
      split <;> rfl
    | freeze =>
      simp only [Stage.received]
      split
      · simp only [Stage.remainder]
        split <;> rfl
      · rfl
    | copy => exact absurd rfl hcopy
    | _ => cases hyields
  unfold conduct
  dsimp only
  split
  · split
    · exact hhandling
    · rfl
  · exact hhandling

/-- What a handle receives is what the call yields. -/
theorem target_of_given {unit : ObjectId}
    (hgiven : (action.result target copy left outcome).given = some (name, unit)) :
    target = some name ∧ outcome.unit? = some unit := by
  unfold result at hgiven
  split at hgiven
  · cases hgiven
  · cases hgiven
  · exact receipt_eq_some.mp hgiven

theorem copy_of_copied {made : Cell}
    (hcopied : (action.result target copy left outcome).copied = some (name, made)) :
    copy = some name := by
  unfold result at hcopied
  split at hcopied
  · cases hcopied
    rfl
  · cases hcopied
  · cases hcopied

end Action

namespace Operation

/-- The handle that receives what an operation yields, if it yields anything. -/
def place? : Operation → Option String
  | .intoInner _ target => target
  | .onCell _ verb _ _ target => if verb.yields then target else none
  | _ => none

theorem yields_action {kind : CellKind} {wanted fresh : Option ObjectId} {verb : Verb}
    {action : Action} (haction : action? kind wanted fresh verb = some action) :
    action.yields = verb.yields := by
  cases verb with
  | debug layout =>
    cases layout with
    | none => cases haction
    | some layout =>
      obtain ⟨-, rfl⟩ : _ ∧ Action.showText layout = action := by simpa [action?] using haction
      rfl
  | guard => cases haction
  | other => cases haction
  | _ =>
    simp only [action?, Option.ite_none_right_eq_some, Option.ite_none_left_eq_some,
      Option.some.injEq] at haction
    obtain ⟨-, rfl⟩ := haction
    rfl

/-- Only a copy of an atomic cell is asked for as a copy. -/
theorem clone_of_copy {kind : CellKind} {wanted fresh : Option ObjectId} {verb : Verb}
    (haction : action? kind wanted fresh verb = some .copy) :
    kind = .atomic ∧ ∃ copy, verb = .cloneCell copy := by
  cases verb with
  | cloneCell copy => exact ⟨by simpa [action?] using haction, copy, rfl⟩
  | debug layout => cases layout <;> simp [action?] at haction
  | _ => simp [action?] at haction

/-- What is asked of a cell is answered at once, or is a copy, or is a call that can yield a unit if
what is asked can. -/
theorem verbTask_cases (cell : Cell) (units : String → Option ObjectId) (vacant : String → Bool)
    (verb : Verb) (new expected : Arg) :
    (∃ reply, verbTask cell units vacant verb new expected = .answer reply) ∨
      (∃ copy, verb = .cloneCell (some copy) ∧
        verbTask cell units vacant verb new expected = .call .copy) ∨
      ∃ action, verbTask cell units vacant verb new expected = .call action ∧ action ≠ .copy ∧
        action.yields = verb.yields := by
  unfold verbTask
  split
  · exact .inl ⟨_, rfl⟩
  · exact .inl ⟨_, rfl⟩
  · split
    · rename_i copy _ _
      cases copy with
      | none => exact .inl ⟨_, rfl⟩
      | some copy =>
        rw [copyTask]
        split
        · exact .inr (.inl ⟨copy, rfl, rfl⟩)
        · exact .inl ⟨_, rfl⟩
    · rename_i hclone _
      unfold plainTask
      split
      · exact .inl ⟨_, rfl⟩
      · exact .inl ⟨_, rfl⟩
      · exact .inl ⟨_, rfl⟩
      · split
        · exact .inl ⟨_, rfl⟩
        · rename_i action haction
          refine .inr (.inr ⟨action, rfl, ?_, yields_action haction⟩)
          rintro rfl
          obtain ⟨hkind, copy, hverb⟩ := clone_of_copy haction
          exact hclone copy hkind hverb

variable {β : Type} [Resident β] {world next : World β} {op : Operation} {name : String}
  {cell : Cell} {reply : Reply} {among : Set ObjectId}

/-- A copy goes to the name that is given for it. -/
theorem copy_of_copied {made : Cell} (hcopied : (op.result world cell).copied = some (name, made)) :
    op.copy? = some name := by
  unfold result at hcopied
  generalize op.task cell world.unit? world.vacant = task at hcopied
  cases task with
  | call action => exact Action.copy_of_copied hcopied
  | _ => cases hcopied

/-- A unit goes to the handle that is to receive it. -/
theorem place_of_given {unit : ObjectId}
    (hgiven : (op.result world cell).given = some (name, unit)) : op.place? = some name := by
  have htarget : op.target? = some name := by
    unfold result at hgiven
    generalize op.task cell world.unit? world.vacant = task at hgiven
    cases task with
    | call action => exact (Action.target_of_given hgiven).1
    | answer reply => cases hgiven
    | consume reply => exact (receipt_eq_some.mp hgiven).1
  cases op with
  | onCell found verb new expected target =>
    cases hyields : verb.yields with
    | true =>
      rw [place?, hyields]
      exact htarget
    | false =>
      exfalso
      rw [result, task] at hgiven
      rcases verbTask_cases cell world.unit? world.vacant verb new expected with
        ⟨reply, htask⟩ | ⟨copy, rfl, htask⟩ | ⟨action, htask, hcopy, hsame⟩
      · rw [htask] at hgiven
        cases hgiven
      · obtain ⟨content, hcontent⟩ : ∃ content, (Action.copy.conduct cell.kind cell.guard
            world.facts world.shape cell.slot.register).outcome = .unit content := by
          cases cell.kind <;> exact ⟨_, rfl⟩
        simp only [htask, Task.result, hcontent] at hgiven
        cases hgiven
      · rw [htask] at hgiven
        have hyielded := (Action.target_of_given hgiven).2
        rw [Action.unit?_conduct (hsame.trans hyields) hcopy] at hyielded
        cases hyielded
  | _ => exact htarget

/-- The objects that an operation on a cell can give back units on: the content of the cell, those
of its arguments, and that of the handle that receives a unit. -/
def touched (op : Operation) (world : World β) (cell : Cell) : Set ObjectId :=
  {obj | cell.slot.content = some obj} ∪ op.argued world ∪
    {obj | ∃ name, op.place? = some name ∧ world.unit? name = some obj}

/-- An operation on a cell comes to its result, and leaves everything else alone. -/
theorem Performs.arrives [Lawful β] [Reticent β] (hperforms : op.Performs world next reply)
    (hresting : world.Resting) (hunscripted : world.Unscripted among)
    (htouched : op.touched world cell ⊆ among)
    (hcell : world.cell? name = some cell) (hon : op.on? = some name) (hplain : op.ByName) :
    reply = (op.result world cell).reply ∧
      world.Arrives next ((op.result world cell).cells name world.cell?)
        (op.result world cell).given := by
  have hbegins := begins_task hresting hcell hon hplain
  have hdistinct := hresting.sound.distinct
  have hcontent (obj : ObjectId) (hobj : cell.slot.content = some obj) : obj ∈ among :=
    htouched (.inl (.inl hobj))
  have hplace (entry : String × ObjectId) (hgiven : (op.result world cell).given = some entry)
      (old : ObjectId) (hold : world.unit? entry.1 = some old) : old ∈ among :=
    htouched (.inr ⟨entry.1, place_of_given hgiven, hold⟩)
  unfold result at hplace ⊢
  generalize op.task cell world.unit? world.vacant = task at hbegins hplace ⊢
  cases task with
  | answer told =>
    have hstart : op.start 0 world = (world, .tidy [] told) := hbegins
    have hends := performs_iff.mp hperforms
    rw [hstart] at hends
    obtain ⟨rfl, rfl⟩ := Solo.ends_reply.mp hends
    have hsame : Function.update next.cell? name (some cell) = next.cell? := by
      rw [← hcell, Function.update_eq_self]
    refine ⟨rfl, ?_⟩
    change next.Arrives next (Function.update next.cell? name (some cell)) none
    rw [hsame]
    exact .refl hdistinct
  | call action =>
    obtain ⟨hcopy, holders, hcalls, hcovers⟩ := hbegins
    have hargued : op.argued world ⊆ among := fun _ hobj => htouched (.inl (.inr hobj))
    exact hcalls.arrives hresting.sound hunscripted hcontent
      (fun id hid => (hcovers id hid).imp_right fun hunits holder hholder hsame =>
        hargued (hunits holder hholder hsame)) hcopy hplace hperforms
  | consume told =>
    have hstart : op.start 0 world =
        (world.eraseCell name, .tidy (delivery op.target? cell.slot.content) told) := hbegins
    have hends := performs_iff.mp hperforms
    rw [hstart] at hends
    obtain ⟨htidies, rfl⟩ := Solo.ends_tidy.mp hends
    have herased : world.Arrives (world.eraseCell name) (world.eraseCell name).cell? none :=
      .of_cells hdistinct (world.eraseCell name).cells
    rw [← List.append_nil (delivery _ _)] at htidies
    obtain ⟨between, harrives, rfl⟩ := htidies.arrives_delivery herased.distinct
      (herased.sheds.unscripted hunscripted) hcontent hplace
    refine ⟨rfl, ?_⟩
    have hlast := herased.before harrives
    rwa [World.cell?_erase] at hlast

end Operation

end SharedCell
