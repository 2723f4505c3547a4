import Mathlib
import SharedCell.Cell
import SharedCell.Agenda
import SharedCell.Proofs.Cell.Answers
import SharedCell.Proofs.Cell.Units

/-!
# Cells in use

What holds of a cell between the steps of the calls on it.  The cell counts its users, lock and pins
are in order, and an atomic cell holds only what its guard accepts.  The guard is asked before a
call touches the slot, so what a call carries to the slot or away from it is accepted too.  A cell
that is being frozen holds what its guard was asked about.
-/

namespace SharedCell

open Text

namespace Guard

/-- A guard that goes on accepting what is frozen. -/
def Steadfast (guard : Guard) : Prop :=
  ∀ facts : Facts, facts.permanent = false → guard.accepts facts = true →
    guard.accepts { facts with frozen := true } = true

theorem steadfast_standard : standard.Steadfast := by
  intro facts _ _
  simp [standard]

theorem steadfast_custom : ∀ guard ∈ custom, guard.Steadfast := by
  intro guard hguard facts hcounted haccepts
  simp only [custom, List.mem_cons, List.not_mem_nil, or_false] at hguard
  rcases hguard with rfl | rfl | rfl | rfl | rfl <;>
    simp_all [acceptAll, acceptNone, evenPayload, frozenOnly, permanentOnly]

end Guard

namespace Slot

/-- `Sound`, for calls in no particular order. -/
def Ruled (slot : Slot) (phases : Multiset Phase) : Prop :=
  ∃ listed : List Phase, ↑listed = phases ∧ slot.Sound listed

variable {slot : Slot} {phase : Phase} {others : Multiset Phase}

theorem Ruled.cons (hruled : slot.Ruled (phase ::ₘ others)) :
    ∃ listed : List Phase, ↑listed = others ∧ slot.Sound (phase :: listed) := by
  obtain ⟨listed, hlisted, hsound⟩ := hruled
  refine ⟨others.toList, others.coe_toList, hsound.perm ?_⟩
  rw [← Multiset.coe_eq_coe, hlisted, ← Multiset.cons_coe, others.coe_toList]

theorem ruled_cons_idle (hidle : phase.Idle) :
    slot.Ruled (phase ::ₘ others) ↔ slot.Ruled others := by
  constructor
  · intro hruled
    obtain ⟨listed, hlisted, hsound⟩ := hruled.cons
    exact ⟨listed, hlisted, (sound_cons_idle hidle).mp hsound⟩
  · rintro ⟨listed, rfl, hsound⟩
    exact ⟨phase :: listed, rfl, (sound_cons_idle hidle).mpr hsound⟩

/-- A slot that no call was ever made on. -/
theorem ruled_opening (content : Option ObjectId) : ({ content } : Slot).Ruled 0 := by
  refine ⟨[], rfl, ?_⟩
  constructor <;> simp [Pins.count]

end Slot

namespace Stage

/-- The outcome of a call that has nothing to do but to give back a unit. -/
def outcome? : Stage → Option Outcome
  | .releasing _ outcome | .finished outcome => some outcome
  | _ => none

theorem outcome?_opening (kind : CellKind) (action : Action) :
    (action.opening kind).outcome? = none := by
  unfold Action.opening
  split <;> rfl

/-- A call that freezes stores nothing. -/
theorem Settled.freeze_stored {kind : CellKind} {guard : Guard} {seen : Register} {stage : Stage}
    {stored : Option (Option ObjectId)} (hsettled : stage.Settled kind guard .freeze seen stored) :
    stored = none := by
  cases stage with
  | asking => exact hsettled.elim
  | calling phase => exact hsettled.2
  | writing => exact hsettled.1
  | vetting => exact hsettled.2.1
  | _ => cases hsettled <;> rfl

/-- A call that freezes is done once the guard has accepted the content, or found none. -/
theorem done_step {kind : CellKind} {guard : Guard} {facts : ObjectId → Facts}
    {shape : Layout → ObjectId → Shape} {slot next : Slot} {stage later : Stage}
    {effect : Option Effect}
    (hstands : stage.Awaits kind .freeze slot.register ∨
      stage.Settled kind guard .freeze slot.register none)
    (hstep : stage.step kind guard .freeze facts shape slot = some (next, later, effect))
    (hdone : later.outcome? = some .done) :
    stage.outcome? = some .done ∨
      ∀ obj, slot.content = some obj → guard.accepts (facts obj) = true := by
  cases move_of_step hstep with
  | accept | stop =>
    rcases hstands with ⟨-, hnew, -⟩ | hsettled
    · cases hnew
    · exact hsettled.elim
  | receive result =>
    rcases hstands with hawaits | ⟨hyield, -⟩
    · have hnever : ¬ (Phase.done result).Awaits slot.register (.read 0) := Phase.not_awaits_done
      exact (hnever hawaits).elim
    · obtain rfl := Option.some.inj hyield
      right
      intro obj hobj
      have hunit : ((Action.freeze.errand kind).settle slot.register).1.unit = some obj := hobj
      simp [received, hunit, outcome?] at hdone
  | approve haccepts =>
    rcases hstands with hawaits | ⟨-, -, hcontent⟩
    · exact hawaits.elim
    · right
      intro obj hobj
      obtain rfl := Option.some.inj (hcontent.symm.trans hobj)
      exact haccepts
  | write unit version haction => cases haction
  | skip =>
    rcases hstands with hawaits | ⟨-, -, -, layout, haction⟩
    · exact hawaits.elim
    · cases haction
  | release => exact .inl hdone
  | call | reject | object | refuse => cases hdone

end Stage

namespace Call

/-- A call that freezes a cell ends without a rejection only if the content was accepted. -/
def Vets (cell : Cell) (facts : ObjectId → Facts) (call : Call) : Prop :=
  (call.stage.Awaits cell.kind .freeze cell.slot.register ∨
      call.stage.Settled cell.kind cell.guard .freeze cell.slot.register none) ∧
    (call.stage.outcome? = some .done → ∀ obj, cell.slot.content = some obj →
      cell.guard.accepts (facts obj) = true)

variable {cell : Cell} {facts : ObjectId → Facts} {shape : Layout → ObjectId → Shape} {slot : Slot}
  {stage : Stage} {effect : Option Effect} {call : Call}

theorem Vets.step (hvets : call.Vets cell facts) (haction : call.action = .freeze)
    (hstep : call.stage.step cell.kind cell.guard call.action facts shape cell.slot =
      some (slot, stage, effect)) :
    ({ call with stage } : Call).Vets { cell with slot } facts := by
  obtain ⟨hstands, haccepted⟩ := hvets
  rw [haction] at hstep
  have hregister : slot.register = cell.slot.register ∧
      (stage.Awaits cell.kind .freeze cell.slot.register ∨
        stage.Settled cell.kind cell.guard .freeze cell.slot.register none) := by
    rcases hstands with hawaits | hsettled
    · rcases hawaits.step hstep with ⟨hagain, hregister⟩ | ⟨stored, hsettled, hregister⟩
      · exact ⟨hregister, .inl (hregister ▸ hagain)⟩
      · obtain rfl := hsettled.freeze_stored
        exact ⟨hregister, .inr hsettled⟩
    · obtain ⟨hagain, hregister⟩ := hsettled.step hstep
      exact ⟨hregister, .inr hagain⟩
  obtain ⟨hregister, hlater⟩ := hregister
  have hcontent : slot.content = cell.slot.content := congrArg Register.content hregister
  refine ⟨hregister.symm ▸ hlater, ?_⟩
  intro houtcome
  change stage.outcome? = some .done at houtcome
  change ∀ obj, slot.content = some obj → cell.guard.accepts (facts obj) = true
  rw [hcontent]
  rcases Stage.done_step hstands hstep houtcome with hbefore | haccepts
  · exact haccepted hbefore
  · exact haccepts

end Call

namespace Cell

/-- What holds of a cell that is in use so many times, by these calls among others. -/
structure Sound (cell : Cell) (visits : ℕ) (calls : Multiset Call) (facts : ObjectId → Facts) :
    Prop where
  users : cell.users + cell.out.toNat = visits
  counted : calls.card ≤ visits
  alone : cell.out = true → cell.users = 0
  unlooked : cell.users = 0 → cell.lookers = []
  slot : cell.slot.Ruled (calls.map (·.stage.phase))
  fits : ∀ call ∈ calls, call.stage.Fits call.action
  copying : ∀ call ∈ calls, call.action = .copy → cell.kind = .atomic
  freezing : ∀ call ∈ calls, call.action = .freeze → cell.kind = .freezable ∧
    (cell.guard.Steadfast → call.Vets cell facts)
  taken : ∀ call ∈ calls, call.action = .freeze → cell.out = true
  content : cell.kind = .atomic → cell.guard.Steadfast → ∀ obj, cell.slot.content = some obj →
    cell.guard.accepts (facts obj) = true
  carried : cell.kind = .atomic → cell.guard.Steadfast → ∀ call ∈ calls, ∀ obj,
    call.stage.Carries obj → cell.guard.accepts (facts obj) = true

@[simp]
theorem use_kind (cell : Cell) (thread : ℕ) (looks : Bool) :
    (cell.use thread looks).kind = cell.kind := by
  unfold use
  repeat' split
  all_goals rfl

@[simp]
theorem use_guard (cell : Cell) (thread : ℕ) (looks : Bool) :
    (cell.use thread looks).guard = cell.guard := by
  unfold use
  repeat' split
  all_goals rfl

@[simp]
theorem use_slot (cell : Cell) (thread : ℕ) (looks : Bool) :
    (cell.use thread looks).slot = cell.slot := by
  unfold use
  repeat' split
  all_goals rfl

@[simp]
theorem leave_kind (cell : Cell) (thread : ℕ) : (cell.leave thread).kind = cell.kind := by
  unfold leave
  repeat' split
  all_goals rfl

@[simp]
theorem leave_guard (cell : Cell) (thread : ℕ) : (cell.leave thread).guard = cell.guard := by
  unfold leave
  repeat' split
  all_goals rfl

@[simp]
theorem leave_slot (cell : Cell) (thread : ℕ) : (cell.leave thread).slot = cell.slot := by
  unfold leave
  repeat' split
  all_goals rfl

/-- A cell that no operation in progress uses. -/
structure Unused (cell : Cell) : Prop where
  present : cell.out = false
  users : cell.users = 0
  lookers : cell.lookers = []

/-- A cell that nothing uses can be used. -/
theorem Unused.bars {cell : Cell} (hunused : cell.Unused) (thread : ℕ) (looks : Bool) :
    cell.bars thread looks = false := by
  simp [Cell.bars, hunused.present, hunused.users]

theorem Unused.write {cell : Cell} (hunused : cell.Unused) (slot : Slot) :
    ({ cell with slot } : Cell).Unused :=
  ⟨hunused.present, hunused.users, hunused.lookers⟩

/-- Its use leaves no trace. -/
theorem Unused.leave_use {cell : Cell} (hunused : cell.Unused) (thread : ℕ) (looks : Bool) :
    (cell.use thread looks).leave thread = cell := by
  obtain ⟨kind, guard, slot, users, out, lookers⟩ := cell
  obtain ⟨rfl, rfl, rfl⟩ := hunused
  cases kind <;> cases looks <;> rfl

section Use

variable {cell : Cell} {thread : ℕ} {looks : Bool}

theorem out_of_not_bars (hbars : cell.bars thread looks = false) : cell.out = false :=
  (Bool.or_eq_false_iff.mp hbars).1

/-- What replaces the content of a freezable cell, or freezes it, has the cell for itself. -/
theorem users_of_not_bars (hkind : cell.kind = .freezable)
    (hbars : cell.bars thread false = false) : cell.users = 0 := by
  simpa [bars, hkind, out_of_not_bars hbars] using hbars

/-- One more operation uses the cell. -/
theorem use_visits (hbars : cell.bars thread looks = false) :
    (cell.use thread looks).users + (cell.use thread looks).out.toNat = cell.users + 1 := by
  have hin := out_of_not_bars hbars
  unfold use
  repeat' split
  all_goals simp [hin]

/-- What takes a cell out has it for itself. -/
theorem use_out (hbars : cell.bars thread looks = false)
    (hout : (cell.use thread looks).out = true) : (cell.use thread looks).users = 0 := by
  have hin := out_of_not_bars hbars
  by_cases hkind : cell.kind = .freezable
  · cases looks with
    | true => simp [use, hkind, hin] at hout
    | false => simpa [use, hkind] using users_of_not_bars hkind hbars
  · simp [use, hkind, hin] at hout

theorem use_unlooked (hunlooked : cell.users = 0 → cell.lookers = [])
    (husers : (cell.use thread looks).users = 0) : (cell.use thread looks).lookers = [] := by
  revert husers
  unfold use
  repeat' split
  · exact fun husers => absurd husers (Nat.succ_ne_zero _)
  · exact hunlooked
  · exact fun husers => absurd husers (Nat.succ_ne_zero _)

end Use

namespace Sound

variable {cell : Cell} {visits : ℕ} {calls : Multiset Call} {call : Call}
  {facts : ObjectId → Facts}

/-- Nothing else uses a cell that a call has taken out. -/
theorem sole (hsound : cell.Sound visits (call ::ₘ calls) facts) (hout : cell.out = true) :
    calls = 0 := by
  have hcounted := hsound.counted
  have husers := hsound.users
  rw [hsound.alone hout, hout, Bool.toNat_true] at husers
  rw [Multiset.card_cons] at hcounted
  rw [← Multiset.card_eq_zero]
  omega

/-- Nothing is in progress on a cell that is not visited. -/
theorem unused (hsound : cell.Sound 0 calls facts) : cell.Unused := by
  have husers := Nat.add_eq_zero_iff.mp hsound.users
  exact ⟨Bool.toNat_eq_zero.mp husers.2, husers.1, hsound.unlooked husers.1⟩

/-- A cell that was just made. -/
theorem opening {kind : CellKind} {guard : Guard} {content : Option ObjectId}
    (haccepts : kind = .atomic → guard.Steadfast → ∀ obj, content = some obj →
      guard.accepts (facts obj) = true) :
    ({ kind, guard, slot := { content } } : Cell).Sound 0 0 facts where
  users := rfl
  counted := le_rfl
  alone _ := rfl
  unlooked _ := rfl
  slot := Slot.ruled_opening content
  fits := by simp
  copying := by simp
  freezing := by simp
  taken := by simp
  content := haccepts
  carried := by simp

/-- A call is begun on a cell that nothing in progress keeps it from. -/
theorem begin {thread : ℕ} (hsound : cell.Sound visits calls facts)
    (hbars : cell.bars thread call.action.looks = false)
    (hstage : call.stage = call.action.opening cell.kind)
    (hcopying : call.action = .copy → cell.kind = .atomic)
    (hfreezing : call.action = .freeze → cell.kind = .freezable) :
    (cell.use thread call.action.looks).Sound (visits + 1) (call ::ₘ calls) facts := by
  have hin := out_of_not_bars hbars
  constructor
  case users =>
    have husers := hsound.users
    rw [hin, Bool.toNat_false, Nat.add_zero] at husers
    rw [use_visits hbars, husers]
  case counted => simpa using hsound.counted
  case alone => exact use_out hbars
  case unlooked => exact fun husers => use_unlooked hsound.unlooked husers
  case slot =>
    rw [use_slot, Multiset.map_cons, hstage]
    exact (Slot.ruled_cons_idle (Stage.idle_opening cell.kind call.action)).mpr hsound.slot
  case fits =>
    intro other hother
    rcases Multiset.mem_cons.mp hother with rfl | hother
    · exact hstage ▸ Stage.fits_opening cell.kind _
    · exact hsound.fits other hother
  case copying =>
    intro other hother haction
    rw [use_kind]
    rcases Multiset.mem_cons.mp hother with rfl | hother
    · exact hcopying haction
    · exact hsound.copying other hother haction
  case freezing =>
    intro other hother haction
    rw [use_kind, use_guard]
    rcases Multiset.mem_cons.mp hother with rfl | hother
    · refine ⟨hfreezing haction, fun _ => ⟨?_, ?_⟩⟩
      · rw [hstage, haction, use_kind, use_slot]
        exact .inl (Stage.awaits_opening cell.kind .freeze _)
      · rw [hstage, Stage.outcome?_opening]
        intro houtcome
        cases houtcome
    · exact absurd (hsound.taken other hother haction) (by simp [hin])
  case taken =>
    intro other hother haction
    rcases Multiset.mem_cons.mp hother with rfl | hother
    · simp [use, hfreezing haction, haction, Action.looks]
    · exact absurd (hsound.taken other hother haction) (by simp [hin])
  case content =>
    rw [use_kind, use_guard, use_slot]
    exact hsound.content
  case carried =>
    rw [use_kind, use_guard]
    intro hkind hsteadfast other hother obj hcarries
    rcases Multiset.mem_cons.mp hother with rfl | hother
    · rw [hstage, Stage.Carries, Stage.units_opening, hkind, Stage.pending_opening] at hcarries
      rcases hcarries with hunit | hpending
      · cases hunit
      · cases hpending
    · exact hsound.carried hkind hsteadfast other hother obj hcarries

/-- A call that has its outcome leaves the cell in use. -/
theorem finish {outcome : Outcome} (hsound : cell.Sound visits (call ::ₘ calls) facts)
    (hfinished : call.stage = .finished outcome) : cell.Sound visits calls facts where
  users := hsound.users
  counted := by
    have hcounted := hsound.counted
    rw [Multiset.card_cons] at hcounted
    omega
  alone := hsound.alone
  unlooked := hsound.unlooked
  slot := by
    have hslot := hsound.slot
    rw [Multiset.map_cons, hfinished] at hslot
    exact (Slot.ruled_cons_idle (Stage.idle_done {})).mp hslot
  fits other hother := hsound.fits other (Multiset.mem_cons_of_mem hother)
  copying other hother := hsound.copying other (Multiset.mem_cons_of_mem hother)
  freezing other hother := hsound.freezing other (Multiset.mem_cons_of_mem hother)
  taken other hother := hsound.taken other (Multiset.mem_cons_of_mem hother)
  content := hsound.content
  carried hkind hsteadfast other hother :=
    hsound.carried hkind hsteadfast other (Multiset.mem_cons_of_mem hother)

/-- An operation leaves the cell. -/
theorem leave (hsound : cell.Sound (visits + 1) calls facts) (hcounted : calls.card ≤ visits)
    (thread : ℕ) : (cell.leave thread).Sound visits calls facts where
  users := by
    have husers := hsound.users
    have halone := hsound.alone
    unfold Cell.leave
    cases hout : cell.out with
    | true =>
      rw [hout, halone hout, Bool.toNat_true] at husers
      simp only [halone hout, if_true, Bool.toNat_false]
      omega
    | false =>
      rw [hout, Bool.toNat_false] at husers
      simp only [if_neg Bool.false_ne_true, Bool.toNat_false]
      omega
  counted := hcounted
  alone := by
    unfold Cell.leave
    intro hout
    repeat' split at hout
    all_goals simp_all
  unlooked := by
    unfold Cell.leave
    split
    · exact hsound.unlooked
    · intro husers
      exact if_pos (Nat.sub_eq_zero_iff_le.mp husers)
  slot := by
    rw [leave_slot]
    exact hsound.slot
  fits := hsound.fits
  copying := by
    rw [leave_kind]
    exact hsound.copying
  freezing := by
    simp only [Call.Vets, leave_kind, leave_guard, leave_slot]
    exact hsound.freezing
  taken call hcall haction := by
    -- Nothing but the one that leaves used the cell, if it was taken out.
    have hout := hsound.taken call hcall haction
    have husers := hsound.users
    rw [hout, hsound.alone hout, Bool.toNat_true] at husers
    have hpos := Multiset.card_pos_iff_exists_mem.mpr ⟨call, hcall⟩
    omega
  content := by
    rw [leave_kind, leave_guard, leave_slot]
    exact hsound.content
  carried := by
    rw [leave_kind, leave_guard]
    exact hsound.carried

/-- A cell that was frozen is atomic from now on. -/
theorem frozen (hsound : cell.Sound visits (call ::ₘ calls) facts) (haction : call.action = .freeze)
    (hfinished : call.stage = .finished .done) :
    ({ cell with kind := .atomic } : Cell).Sound visits calls facts := by
  have hcall := Multiset.mem_cons_self call calls
  obtain ⟨hkind, hvets⟩ := hsound.freezing call hcall haction
  have hsole := hsound.sole (hsound.taken call hcall haction)
  have hrest := hsound.finish hfinished
  subst hsole
  constructor
  case users => exact hrest.users
  case counted => exact hrest.counted
  case alone => exact hrest.alone
  case unlooked => exact hrest.unlooked
  case slot => exact hrest.slot
  case content =>
    intro _ hsteadfast
    exact (hvets hsteadfast).2 (by rw [hfinished]; rfl)
  all_goals simp

/-- A content that is pinned is still there, or is owned by the call that displaced it. -/
theorem pinned_kept {obj : ObjectId} {version : ℕ} (hsound : cell.Sound visits calls facts)
    (hcall : call ∈ calls) (hpinned : call.stage.phase.pinnedContent? = some (obj, version)) :
    cell.slot.content = some obj ∨ ∃ other ∈ calls, obj ∈ other.stage.units := by
  obtain ⟨listed, hlisted, hslot⟩ := hsound.slot
  have hmem : ∀ phase, phase ∈ listed ↔ phase ∈ calls.map (·.stage.phase) := by
    intro phase
    rw [← hlisted, Multiset.mem_coe]
  have hphase : call.stage.phase ∈ listed :=
    (hmem _).mpr (Multiset.mem_map_of_mem (fun call : Call => call.stage.phase) hcall)
  rcases hslot.pinned _ hphase obj version hpinned with ⟨hcontent, -⟩ | ⟨phase, hdisplaced, hgone⟩
  · exact .inl hcontent
  · obtain ⟨other, hother, rfl⟩ := Multiset.mem_map.mp ((hmem phase).mp hdisplaced)
    exact .inr ⟨other, hother, Stage.mem_units_of_displaced hgone⟩

/-- What a call carries after a step, and what it leaves in the slot, was there before or was
pinned. -/
theorem accepted_step {shape : Layout → ObjectId → Shape} {slot : Slot} {stage : Stage}
    {effect : Option Effect} (hsound : cell.Sound visits (call ::ₘ calls) facts)
    (hkind : cell.kind = .atomic) (hsteadfast : cell.guard.Steadfast)
    (hstep : call.stage.step cell.kind cell.guard call.action facts shape cell.slot =
      some (slot, stage, effect)) :
    ∀ obj ∈ (stage.units : Multiset ObjectId) + slot.units,
      cell.guard.accepts (facts obj) = true := by
  intro obj hobj
  have hcall := Multiset.mem_cons_self call calls
  have hunits := Stage.step_units (hsound.fits call hcall) hstep
  have hbefore : obj ∈ (call.stage.units : Multiset ObjectId) + cell.slot.units +
      Effect.gains effect := by
    rw [← hunits, Multiset.mem_add]
    exact .inl hobj
  rw [Multiset.mem_add, Multiset.mem_add, Multiset.mem_coe, Slot.mem_units,
    Effect.mem_gains] at hbefore
  rcases hbefore with (hunit | hcontent) | rfl
  · exact hsound.carried hkind hsteadfast call hcall obj (.inl hunit)
  · exact hsound.content hkind hsteadfast obj hcontent
  · rcases Stage.acquires_step hstep with ⟨version, hpinned⟩ | hpending
    · rcases hsound.pinned_kept hcall hpinned with hcontent | ⟨other, hother, hunit⟩
      · exact hsound.content hkind hsteadfast obj hcontent
      · exact hsound.carried hkind hsteadfast other hother obj (.inl hunit)
    · exact hsound.carried hkind hsteadfast call hcall obj (.inr hpending)

/-- A call makes a step. -/
theorem step {shape : Layout → ObjectId → Shape} {slot : Slot} {stage : Stage}
    {effect : Option Effect} (hsound : cell.Sound visits (call ::ₘ calls) facts)
    (hstep : call.stage.step cell.kind cell.guard call.action facts shape cell.slot =
      some (slot, stage, effect)) :
    ({ cell with slot } : Cell).Sound visits ({ call with stage } ::ₘ calls) facts := by
  have hcall := Multiset.mem_cons_self call calls
  constructor
  case users => exact hsound.users
  case counted =>
    rw [Multiset.card_cons, ← Multiset.card_cons call]
    exact hsound.counted
  case alone => exact hsound.alone
  case unlooked => exact hsound.unlooked
  case slot =>
    have hslot := hsound.slot
    rw [Multiset.map_cons] at hslot ⊢
    obtain ⟨listed, hlisted, hbefore⟩ := hslot.cons
    exact ⟨stage.phase :: listed, hlisted ▸ rfl, hbefore.stageStep hstep⟩
  case fits =>
    intro other hother
    rcases Multiset.mem_cons.mp hother with rfl | hother
    · exact (hsound.fits call hcall).step hstep
    · exact hsound.fits other (Multiset.mem_cons_of_mem hother)
  case copying =>
    intro other hother
    rcases Multiset.mem_cons.mp hother with rfl | hother
    · exact hsound.copying call hcall
    · exact hsound.copying other (Multiset.mem_cons_of_mem hother)
  case freezing =>
    intro other hother haction
    rcases Multiset.mem_cons.mp hother with rfl | hother
    · obtain ⟨hkind, hvets⟩ := hsound.freezing call hcall haction
      exact ⟨hkind, fun hsteadfast => (hvets hsteadfast).step haction hstep⟩
    · rw [hsound.sole (hsound.taken other (Multiset.mem_cons_of_mem hother) haction)] at hother
      cases hother
  case taken =>
    intro other hother haction
    rcases Multiset.mem_cons.mp hother with rfl | hother
    · exact hsound.taken call hcall haction
    · exact hsound.taken other (Multiset.mem_cons_of_mem hother) haction
  case content =>
    intro hkind hsteadfast obj hobj
    refine hsound.accepted_step hkind hsteadfast hstep obj ?_
    rw [Multiset.mem_add, Slot.mem_units]
    exact .inr hobj
  case carried =>
    intro hkind hsteadfast other hother obj hcarries
    rcases Multiset.mem_cons.mp hother with rfl | hother
    · rcases hcarries with hunit | hpending
      · refine hsound.accepted_step hkind hsteadfast hstep obj ?_
        rw [Multiset.mem_add]
        exact .inl hunit
      · rcases Stage.pending_step (hsound.fits call hcall) hstep hpending with
          hbefore | ⟨-, haccepts⟩
        · exact hsound.carried hkind hsteadfast call hcall obj (.inr hbefore)
        · exact haccepts
    · exact hsound.carried hkind hsteadfast other (Multiset.mem_cons_of_mem hother) obj hcarries

/-- Facts may change if what the guard accepted among the content and what is carried remains
acceptable. -/
theorem refacts {later : ObjectId → Facts} (hsound : cell.Sound visits calls facts)
    (hcontent : cell.guard.Steadfast → ∀ obj, cell.slot.content = some obj →
      cell.guard.accepts (facts obj) = true → cell.guard.accepts (later obj) = true)
    (hcarried : cell.guard.Steadfast → ∀ call ∈ calls, ∀ obj, call.stage.Carries obj →
      cell.guard.accepts (facts obj) = true → cell.guard.accepts (later obj) = true) :
    cell.Sound visits calls later where
  users := hsound.users
  counted := hsound.counted
  alone := hsound.alone
  unlooked := hsound.unlooked
  slot := hsound.slot
  fits := hsound.fits
  copying := hsound.copying
  freezing call hcall haction := by
    obtain ⟨hkind, hvets⟩ := hsound.freezing call hcall haction
    refine ⟨hkind, fun hsteadfast => ⟨(hvets hsteadfast).1, ?_⟩⟩
    intro houtcome obj hobj
    exact hcontent hsteadfast obj hobj ((hvets hsteadfast).2 houtcome obj hobj)
  taken := hsound.taken
  content hkind hsteadfast obj hobj :=
    hcontent hsteadfast obj hobj (hsound.content hkind hsteadfast obj hobj)
  carried hkind hsteadfast call hcall obj hcarries :=
    hcarried hsteadfast call hcall obj hcarries
      (hsound.carried hkind hsteadfast call hcall obj hcarries)

end Sound

end Cell

end SharedCell
