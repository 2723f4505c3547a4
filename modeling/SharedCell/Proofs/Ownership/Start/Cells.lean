import Mathlib
import SharedCell.Proofs.Ownership.Start.Objects

/-!
# Beginnings of operations on cells

A new cell gets a unit of its own on its content, or the unit of a handle.  A cell that is consumed
leaves its content in hand.  A call on a cell begins with its arguments and the cell in use.
-/

namespace SharedCell

open Operation

variable {β : Type} [Resident β] {world next : World β} {stakes : Stakes} {thread : ℕ}
  {frame : Frame}

namespace Attempt

/-! ## Cells that are made and consumed -/

theorem addCell_begun {name : String} {kind : CellKind} {guard : Guard} {content : Option ObjectId}
    (hsound : world.Sound (.unitsOn ↑content.toList + stakes)) (hnew : world.cell? name = none)
    (haccepts : kind = .atomic → ∀ obj, content = some obj →
      guard.accepts (world.facts obj) = true)
    (hrun : (addCell name kind guard content : Attempt β Frame).run world = .ok (frame, next)) :
    Begun stakes next frame := by
  have hadded := hsound.addCell hnew fun hkind _ => haccepts hkind
  exact (replies_answer _).begun hadded (bind_modify hrun)

/-- A unit is acquired for the content of a new cell. -/
theorem acquire_run [Lawful β] {unit : Option ObjectId} {result : Unit}
    (hsound : world.Sound stakes) (howned : ∀ obj, unit = some obj → obj ∈ world.owned)
    (hrun : (unit.forM fun obj => modify (·.acquire thread obj) : Attempt β Unit).run world =
      .ok (result, next)) :
    next.Sound (.unitsOn ↑unit.toList + stakes) ∧ next.cells = world.cells ∧
      next.facts = world.facts := by
  cases unit with
  | none =>
    obtain ⟨-, rfl⟩ := run_pure.mp hrun
    exact ⟨by simpa using hsound, rfl, rfl⟩
  | some obj =>
    obtain rfl := run_modify.mp hrun
    refine ⟨?_, rfl, ?_⟩
    · exact hsound.acquire thread (Multiset.mem_add.mpr (.inl (howned obj rfl)))
    · exact World.facts_modifyObject fun object => Lawful.facts_acquire object.body

theorem newCell_begun [Lawful β] {cell : Option String} {guard : GuardArg} {value : Arg}
    {kind : Option (Option CellKind)} {origin : Option Origin} {source : Option String}
    (hsound : world.Sound stakes)
    (hrun : (startNewCell thread cell guard value kind origin source : Attempt β Frame).run world =
      .ok (frame, next)) :
    Begun stakes next frame := by
  rw [startNewCell] at hrun
  obtain ⟨name, hnew, hrun⟩ := bind_newCellName hrun
  obtain ⟨given, -, hrun⟩ := bind_stays (stays_guardOf guard) hrun
  obtain ⟨value, hvalue, hrun⟩ := bind_arg hrun
  obtain ⟨kind, -, hrun⟩ := bind_field hrun
  have howned : ∀ obj, value.map (·.unit) = some obj → obj ∈ world.owned := by
    intro obj hobj
    obtain ⟨holder, hholder, rfl⟩ := Option.map_eq_some_iff.mp hobj
    exact World.owned_of_holder (hvalue holder hholder).1
  have hempty : world.Sound (.unitsOn ↑(none : Option ObjectId).toList + stakes) := by
    simpa using hsound
  -- What a freezable cell or a slot contains needs no acceptance.
  have hacquired {kind : CellKind} {guard : Guard} (hkind : kind ≠ .atomic)
      (hrun : ((do
        (value.map (·.unit)).forM fun obj => modify (·.acquire thread obj)
        addCell name kind guard (value.map (·.unit))) : Attempt β Frame).run world =
          .ok (frame, next)) :
      Begun stakes next frame := by
    obtain ⟨_, acquired, hacquire, hrun⟩ := run_bind.mp hrun
    obtain ⟨hsound, hcells, -⟩ := acquire_run hsound howned hacquire
    refine addCell_begun hsound ?_ (fun hatomic => absurd hatomic hkind) hrun
    rwa [World.cell?, hcells]
  split at hrun
  · obtain ⟨rejected, _, henforce, hrun⟩ := run_bind.mp hrun
    obtain ⟨hasked, ⟨log, rfl⟩, haccepts⟩ := enforce_run hsound henforce
    split at hrun
    · exact (replies_answer _).begun hasked hrun
    · obtain ⟨_, acquired, hacquire, hrun⟩ := run_bind.mp hrun
      obtain ⟨hsound, hcells, hfacts⟩ := acquire_run hasked howned hacquire
      refine addCell_begun hsound ?_ ?_ hrun
      · rwa [World.cell?, hcells]
      · rw [hfacts]
        exact fun _ => haccepts rfl
  · exact addCell_begun hempty hnew (by simp) hrun
  · exact addCell_begun hempty hnew (by simp) hrun
  · exact hacquired (by decide) hrun
  · exact addCell_begun hempty hnew (by simp) hrun
  · exact hacquired (by decide) hrun
  · obtain ⟨ids, _, huse, hrun⟩ := run_bind.mp hrun
    obtain ⟨hused, holders, rfl, -⟩ := use_run hsound (by simp_all) huse
    obtain ⟨moved, _, hpull, hrun⟩ := run_bind.mp hrun
    obtain ⟨hpulled, holders, rfl⟩ := pull_sound hused hpull
    have hadded := bind_modify hrun
    obtain ⟨rfl, rfl⟩ := run_pure.mp hadded
    refine ⟨?_, ordinary_endUses ids⟩
    rw [Frame.stakes, stakes_endUses]
    have hmoved : World.Sound _ (.unitsOn ↑(some moved).toList + (.usesOf ids + stakes)) := hpulled
    exact hmoved.addCell hnew (by simp)
  · exact (run_throw.mp hrun).elim

omit [Resident β] in
/-- A cell that is dropped was idle, and its content is given back. -/
theorem dropCell_run {cell : Option String}
    (hrun : (startDropCell cell : Attempt β Frame).run world = .ok (frame, next)) :
    ∃ name found, cell = some name ∧ world.cell? name = some found ∧ found.idle = true ∧
      next = world.eraseCell name ∧ frame = .tidy (delivery none found.slot.content) .ok := by
  obtain ⟨⟨name, found⟩, hfound, hrun⟩ := bind_stays (stays_cell cell) hrun
  obtain ⟨hname, hcell⟩ := cell_run hfound
  obtain ⟨hidle, hrun⟩ := bind_require hrun
  have herased := bind_modify hrun
  obtain ⟨rfl, rfl⟩ := run_pure.mp herased
  exact ⟨name, found, hname, hcell, hidle, rfl, rfl⟩

omit [Resident β] in
/-- A cell that is consumed was idle, and its content is handed over. -/
theorem intoInner_run {cell target : Option String}
    (hrun : (startIntoInner cell target : Attempt β Frame).run world = .ok (frame, next)) :
    ∃ name found, cell = some name ∧ world.cell? name = some found ∧ found.idle = true ∧
      next = world.eraseCell name ∧
        frame = .tidy (delivery target found.slot.content) (.unit found.slot.content) := by
  obtain ⟨⟨name, found⟩, hfound, hrun⟩ := bind_stays (stays_cell cell) hrun
  obtain ⟨hname, hcell⟩ := cell_run hfound
  obtain ⟨-, hrun⟩ := bind_require hrun
  obtain ⟨hidle, hrun⟩ := bind_require hrun
  have herased := bind_modify hrun
  obtain ⟨rfl, rfl⟩ := run_pure.mp herased
  exact ⟨name, found, hname, hcell, hidle, rfl, rfl⟩

/-- The content of a cell that leaves the table is at stake in what comes next. -/
theorem erased_begun {name : String} {found : Cell} (hsound : world.Sound stakes)
    (hcell : world.cell? name = some found) (hidle : found.idle = true) (target : Option String)
    (reply : Reply) :
    Begun stakes (world.eraseCell name) (.tidy (delivery target found.slot.content) reply) := by
  refine ⟨?_, ordinary_delivery _ _⟩
  rw [Frame.stakes, stakes_delivery]
  exact hsound.eraseCell hcell hidle

theorem dropCell_begun {cell : Option String} (hsound : world.Sound stakes)
    (hrun : (startDropCell cell : Attempt β Frame).run world = .ok (frame, next)) :
    Begun stakes next frame := by
  obtain ⟨name, found, -, hcell, hidle, rfl, rfl⟩ := dropCell_run hrun
  exact erased_begun hsound hcell hidle none .ok

theorem intoInner_begun {cell target : Option String} (hsound : world.Sound stakes)
    (hrun : (startIntoInner cell target : Attempt β Frame).run world = .ok (frame, next)) :
    Begun stakes next frame := by
  obtain ⟨name, found, -, hcell, hidle, rfl, rfl⟩ := intoInner_run hrun
  exact erased_begun hsound hcell hidle target _

/-! ## Calls -/

omit [Resident β] in
/-- What a verb stands for is not to freeze, copies atomic cells only, and stores its argument. -/
theorem action?_eq_some {kind : CellKind} {expected new : Option ObjectId} {verb : Verb}
    {action : Action} (haction : action? kind expected new verb = some action) :
    action ≠ .freeze ∧ (action = .copy → kind = .atomic) ∧
      ∀ obj, action.new? = some obj → new = some obj := by
  unfold action? at haction
  split at haction <;> grind [Action.new?]

omit [Resident β] in
/-- What a verb stands for looks at the cell if the verb says so. -/
theorem action?_looks {kind : CellKind} {expected new : Option ObjectId} {verb : Verb}
    {action : Action} (haction : action? kind expected new verb = some action) :
    action.looks = verb.looks := by
  unfold action? at haction
  split at haction <;> grind [Action.looks, Verb.looks]

/-- The handles of its arguments stay in use until a call is done. -/
theorem makeCall_run {thread : ℕ} {name : String} {cell : Cell} {action : Action}
    {target copy : Option String} {found : List (Option Holder)} {call : Call} (hsound : world.Sound stakes)
    (hcell : world.cell? name = some cell) (hbars : cell.bars thread action.looks = false)
    (hfound : ∀ holder, some holder ∈ found → holder ∈ world.holders ∧ holder.exclusive = false)
    (hcopying : action = .copy → cell.kind = .atomic)
    (hfreezing : action = .freeze → cell.kind = .freezable)
    (hnew : ∀ obj, action.new? = some obj → ∃ holder, some holder ∈ found ∧ holder.unit = obj)
    (hrun : (makeCall thread name cell action target copy found : Attempt β Call).run world =
      .ok (call, next)) :
    next.Sound (.making call + stakes) := by
  rw [makeCall] at hrun
  obtain ⟨ids, _, huse, hrun⟩ := run_bind.mp hrun
  obtain ⟨hused, holders, rfl, hkept⟩ := use_run hsound hfound huse
  have hbegun := bind_modify hrun
  obtain ⟨rfl, rfl⟩ := run_pure.mp hbegun
  refine hused.beginCall
    { cell := name, action, stage := action.opening cell.kind, target, copy, holders := ids }
    (mem_of_lookup hcell) hbars rfl hcopying hfreezing ?_
  intro obj hobj
  obtain ⟨holder, hholder, rfl⟩ := hnew obj hobj
  obtain ⟨hid, held, hheld, hsame, hunit⟩ := hkept holder hholder
  exact ⟨held, hheld, hsame ▸ hid, hunit⟩

theorem freezeCell_begun {thread : ℕ} {cell : Option String} (hsound : world.Sound stakes)
    (hrun : (startFreezeCell thread cell : Attempt β Frame).run world = .ok (frame, next)) :
    Begun stakes next frame := by
  rw [startFreezeCell] at hrun
  obtain ⟨name, cell, hcell, hrun⟩ := bind_cell hrun
  obtain ⟨hkind, hrun⟩ := bind_require hrun
  obtain ⟨hbars, hrun⟩ := bind_require hrun
  obtain ⟨call, _, hcall, hrun⟩ := run_bind.mp hrun
  obtain ⟨rfl, rfl⟩ := run_pure.mp hrun
  refine ⟨makeCall_run hsound hcell (by simpa [Action.looks] using hbars) (by simp) (by simp) ?_ ?_
    hcall, rfl⟩
  · exact fun _ => of_decide_eq_true hkind
  · simp [Action.new?]

theorem stays_address (argument : Arg) :
    (address argument : Attempt β (Option ObjectId)).Stays := by
  cases argument with
  | empty => exact stays_pure _
  | malformed => exact stays_throw _
  | named name =>
    rw [address]
    split
    · refine stays_get.bind fun world => ?_
      split
      · exact stays_throw _
      · exact stays_get.bind fun _ => (stays_require _ _).bind fun _ => stays_pure _
    · exact (stays_named name).bind fun _ => stays_pure _

theorem stays_comparand (kind : CellKind) (verb : Verb) (argument : Arg) :
    (comparand kind verb argument : Attempt β (Option Holder × Option ObjectId)).Stays := by
  unfold comparand
  split
  · exact stays_pure _
  · exact (stays_arg argument).bind fun _ => stays_pure _
  · exact (stays_address argument).bind fun _ => stays_pure _

theorem comparand_run {kind : CellKind} {verb : Verb} {argument : Arg} {holder : Option Holder}
    {expected : Option ObjectId}
    (hrun : (comparand kind verb argument :
      Attempt β (Option Holder × Option ObjectId)).run world = .ok ((holder, expected), next)) :
    ∀ found, holder = some found → found ∈ world.holders ∧ found.exclusive = false := by
  unfold comparand at hrun
  split at hrun
  · obtain ⟨heq, -⟩ := run_pure.mp hrun
    obtain ⟨rfl, -⟩ := Prod.mk.inj heq
    simp
  · obtain ⟨found, hfound, hrun⟩ := bind_arg hrun
    obtain ⟨heq, -⟩ := run_pure.mp hrun
    obtain ⟨rfl, -⟩ := Prod.mk.inj heq
    exact hfound
  · obtain ⟨obj, -, hrun⟩ := bind_stays (stays_address argument) hrun
    obtain ⟨heq, -⟩ := run_pure.mp hrun
    obtain ⟨rfl, -⟩ := Prod.mk.inj heq
    simp

omit [Resident β] in
theorem stays_copyName (kind : CellKind) (verb : Verb) :
    (copyName kind verb : Attempt β (Option String)).Stays := by
  unfold copyName
  split
  · rw [map_eq_pure_bind]
    exact (stays_newCellName _).bind fun _ => stays_pure _
  · exact stays_pure none

theorem onCell_begun {thread : ℕ} {cell : Option String} {verb : Verb} {new expected : Arg}
    {target : Option String} (hsound : world.Sound stakes)
    (hrun : (startOnCell thread cell verb new expected target : Attempt β Frame).run world =
      .ok (frame, next)) :
    Begun stakes next frame := by
  rw [startOnCell] at hrun
  obtain ⟨name, cell, hcell, hrun⟩ := bind_cell hrun
  obtain ⟨hbars, hrun⟩ := bind_require hrun
  obtain ⟨new, hnew, hrun⟩ := bind_arg hrun
  obtain ⟨⟨holder, expected⟩, hcomparand, hrun⟩ := bind_stays (stays_comparand _ _ _) hrun
  have hholder := comparand_run hcomparand
  obtain ⟨copy, -, hrun⟩ := bind_stays (stays_copyName _ _) hrun
  split at hrun
  · exact (replies_answer _).begun hsound hrun
  · exact (run_throw.mp hrun).elim
  · exact (run_throw.mp hrun).elim
  · split at hrun
    · exact (run_throw.mp hrun).elim
    · rename_i action haction
      obtain ⟨hfreeze, hatomic, hstores⟩ := action?_eq_some haction
      obtain ⟨call, _, hcall, hrun⟩ := run_bind.mp hrun
      obtain ⟨rfl, rfl⟩ := run_pure.mp hrun
      refine ⟨makeCall_run hsound hcell ?_ ?_ hatomic (fun heq => absurd heq hfreeze) ?_ hcall, rfl⟩
      · simpa [action?_looks haction] using hbars
      · simp only [List.mem_cons, List.not_mem_nil, or_false]
        rintro found (heq | heq)
        · exact hholder found heq.symm
        · exact hnew found heq.symm
      · intro obj hobj
        obtain ⟨found, hfound, hunit⟩ := Option.map_eq_some_iff.mp (hstores obj hobj)
        exact ⟨found, by simp [hfound], hunit⟩

end Attempt

end SharedCell
