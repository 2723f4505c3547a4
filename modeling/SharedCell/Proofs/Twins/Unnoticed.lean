import Mathlib
import SharedCell.Proofs.Solo.Ending
import SharedCell.Proofs.Twins.Frozen

/-!
# Freezing unnoticed

A freezable cell has the content, the version and the guard of the atomic cell that was given the
same operations from the start, as long as the guard accepts what is stored.  So it does not show
when it was frozen, but for what the guard was asked, and a failure to freeze it does not show at
all.
-/

namespace SharedCell

open Operation

variable {β : Type} [Resident β] {name : String} {guard : Guard} {frozen : Bool} {value : Arg}
  {world created middle next : World β} {before : List Operation} {reply : Reply}

namespace Operation

/-- The guard of a cell that is frozen after some operations decides whether this succeeds, and that
is all that shows of it. -/
structure Unnoticed (name : String) (guard : Guard) (value : Arg) (world created : World β)
    (before : List Operation) : Prop where
  /-- All that is done before and after comes to an end. -/
  ends : ∀ after, ordinaryAll after = true →
    ∃ next replies, PerformsAll created (before ++ freezeCell (some name) :: after) next replies
  /-- Freezing comes to an end, and succeeds if there is no content or the guard accepts it, and only
  then. -/
  freezes : ∀ middle early, PerformsAll created before middle early → ∃ cell next reply,
    middle.cell? name = some cell ∧ cell.kind = .freezable ∧ cell.guard = guard ∧
      (freezeCell (some name)).Performs middle next reply ∧
      (reply = .ok ↔
        ∀ obj, cell.slot.content = some obj → guard.accepts (middle.facts obj) = true)
  /-- The cell that was frozen has the same content, version and guard, and nothing else is
  different. -/
  succeeds : ∀ middle early next, PerformsAll created before middle early →
    (freezeCell (some name)).Performs middle next .ok → (middle.shareCell name).Agrees next
  /-- A cell that was not frozen is the same as before, and so is all that comes after. -/
  fails : ∀ middle early next reply, PerformsAll created before middle early →
    (freezeCell (some name)).Performs middle next reply → reply ≠ .ok → middle.Agrees next ∧
      ∀ after, ordinaryAll after = true →
        InStep World.Agrees (PerformsAll middle after) (PerformsAll next after)
  /-- If the guard accepted all that was stored, the cell is frozen wherever this is tried, and then
  it was an atomic cell from the start as far as anybody can tell. -/
  alike : guard.Steadfast →
    (∀ obj, value.unit? world = some obj → guard.accepts (world.facts obj) = true) →
    Accepts name guard created before →
      (∀ middle early next reply, PerformsAll created before middle early →
        (freezeCell (some name)).Performs middle next reply → reply = .ok) ∧
      ∃ twin, (withGuard .atomic name guard value).Performs world twin .ok ∧
        InStep (fun left right => (left.shareCell name).Agrees right)
          (PerformsAll created before) (PerformsAll twin before) ∧
        ∀ after, ordinaryAll after = true → InStep World.Agrees
          (fun next replies => PerformsAll created (before ++ freezeCell (some name) :: after) next
            (replies.insertIdx before.length .ok))
          (PerformsAll twin (before ++ after))

/-! ## The outcome -/

/-- An attempt to freeze a cell comes to an end, and the guard decides what it comes to. -/
theorem freezeCell_outcome [Restoring β] {cell : Cell} (hsound : middle.Sound 0)
    (hcell : middle.cell? name = some cell) (hkind : cell.kind = .freezable) :
    ∃ next reply, (freezeCell (some name)).Performs middle next reply ∧
      (reply = .ok ↔ ∀ obj, cell.slot.content = some obj →
        cell.guard.accepts (middle.facts obj) = true) ∧
      (reply = .ok → (middle.shareCell name).Agrees next) ∧
      (reply ≠ .ok → middle.Agrees next) := by
  obtain ⟨haccepted, hrefused⟩ := performs_freezeCell hsound hcell hkind
  by_cases haccepts :
      ∀ obj, cell.slot.content = some obj → cell.guard.accepts (middle.facts obj) = true
  · obtain ⟨next, hfrozen, hagrees⟩ := haccepted haccepts
    exact ⟨next, .ok, hfrozen, iff_of_true rfl haccepts, fun _ => hagrees, absurd rfl⟩
  · obtain ⟨obj, hrefuses⟩ := not_forall.mp haccepts
    obtain ⟨hcontent, hrefuses⟩ := Classical.not_imp.mp hrefuses
    obtain ⟨next, hkept, hagrees⟩ := hrefused obj hcontent (Bool.eq_false_iff.mpr hrefuses)
    have hfault : Reply.fault (.unshareable obj) ≠ .ok := by simp
    exact ⟨next, _, hkept, iff_of_false hfault haccepts, fun hok => absurd hok hfault,
      fun _ => hagrees⟩

/-! ## What comes before -/

section Before

variable [Restoring β] (hsound : world.Sound 0)
  (hscripts : ∀ obj object, world.object? obj = some object →
    suitsAll true (some name) object.script = true)
  (hmade : (withGuard .freezable name guard value).Performs world created .ok)
  (hearly : ∀ op ∈ before, op.Early name)

include hsound hscripts hmade hearly

/-- Whatever is done to a cell before it is frozen, it can be frozen, and it keeps its guard. -/
theorem exists_freezable {early : List Reply} (hbefore : PerformsAll created before middle early) :
    middle.Sound 0 ∧ ∃ cell, middle.cell? name = some cell ∧ cell.kind = .freezable ∧
      cell.guard = guard := by
  have hcreated := hmade.sound hsound rfl
  have hpairs : (resembling β name guard false).Pairs created created :=
    withGuard_pairs hmade hcreated hscripts (.refl created)
  obtain ⟨twin, -, hlater⟩ := (early_inStep hpairs hcreated hearly (by simp)).forth _ _ hbefore
  obtain ⟨cell, _, hcell, -, hresembles⟩ := hlater.resembles
  exact ⟨hbefore.sound hcreated (ordinaryAll_of_early hearly), cell, hcell, hresembles.kind,
    hresembles.guard⟩

theorem shared_inStep {twin : World β} (htwin : (created.shareCell name).Agrees twin)
    (haccepts : Accepts name guard created before) :
    InStep (fun left right => (left.shareCell name).Agrees right)
      (PerformsAll created before) (PerformsAll twin before) := by
  have hcreated := hmade.sound hsound rfl
  have hpairs : (resembling β name guard true).Pairs created twin :=
    withGuard_pairs hmade hcreated hscripts htwin
  refine (early_inStep hpairs hcreated hearly fun _ => haccepts).mono ?_
  intro middle other early hbefore _ hlater
  exact hlater.shared (hbefore.sound hcreated (ordinaryAll_of_early hearly))

/-- The atomic cell holds nothing that the guard does not accept, so the freezable one is frozen
whenever this is tried. -/
theorem frozen_of_accepts {twin : World β} {early : List Reply} (hsteadfast : guard.Steadfast)
    (htwin : (created.shareCell name).Agrees twin) (hmadeTwin : twin.Sound 0)
    (haccepts : Accepts name guard created before)
    (hbefore : PerformsAll created before middle early) :
    ∃ next, (freezeCell (some name)).Performs middle next .ok ∧
      (middle.shareCell name).Agrees next := by
  obtain ⟨hmiddle, cell, hcell, hkind, rfl⟩ :=
    exists_freezable hsound hscripts hmade hearly hbefore
  obtain ⟨other, hother, hagrees⟩ :=
    (shared_inStep hsound hscripts hmade hearly htwin haccepts).forth _ _ hbefore
  have hsame : other.Sound 0 := hother.sound hmadeTwin (ordinaryAll_of_early hearly)
  have hatomic : other.cell? name = some { cell with kind := .atomic } := by
    rw [hagrees.cell?]
    exact World.cell?_modifyCell hcell
  apply (performs_freezeCell hmiddle hcell hkind).1
  intro obj hcontent
  have haccepted := (hsame.housed.sound _ _ (mem_of_lookup hatomic)).content rfl hsteadfast obj
    hcontent
  rwa [hagrees.facts] at haccepted

end Before

/-! ## What comes after -/

/-- The reply to one operation among several stands where the operation does. -/
theorem performsAll_insert {op : Operation} {after : List Operation} {replies : List Reply} :
    PerformsAll world (before ++ op :: after) next (replies.insertIdx before.length reply) ↔
      ∃ middle between early late, PerformsAll world before middle early ∧
        op.Performs middle between reply ∧ PerformsAll between after next late ∧
          replies = early ++ late := by
  have hinsert (early late : List Reply) (told : Reply) :
      (early ++ late).insertIdx early.length told = early ++ told :: late :=
    List.modifyTailIdx_add (List.cons told) 0 early late
  rw [performsAll_append]
  constructor
  · rintro ⟨middle, early, rest, hbefore, hrest, heq⟩
    obtain ⟨between, told, late, hop, hafter, rfl⟩ := performsAll_cons.mp hrest
    rw [← hbefore.length] at heq
    have hreplies : replies = early ++ late := by
      calc replies = (replies.insertIdx early.length reply).eraseIdx early.length :=
            (List.eraseIdx_insertIdx_self reply).symm
        _ = ((early ++ late).insertIdx early.length told).eraseIdx early.length := by
            rw [heq, hinsert]
        _ = early ++ late := List.eraseIdx_insertIdx_self told
    rw [hreplies, hinsert] at heq
    obtain ⟨rfl, -⟩ := List.cons.inj (List.append_cancel_left heq)
    exact ⟨middle, between, early, late, hbefore, hop, hafter, hreplies⟩
  · rintro ⟨middle, between, early, late, hbefore, hop, hafter, rfl⟩
    refine ⟨middle, early, reply :: late, hbefore, .cons hop hafter, ?_⟩
    rw [← hbefore.length, hinsert]

/-- Wherever in a list of operations a cell is frozen, the guard decides whether this succeeds, and
nothing else shows of it. -/
theorem freezing_unnoticed [Restoring β] {setup : List Operation} {told : List Reply}
    (hsetup : PerformsAll ({} : World β) setup world told) (hordinary : ordinaryAll setup = true)
    (hscripts : ∀ obj object, world.object? obj = some object →
      suitsAll true (some name) object.script = true)
    (hmade : (withGuard .freezable name guard value).Performs world created .ok)
    (hearly : ∀ op ∈ before, op.Early name) : Unnoticed name guard value world created before := by
  have hsound := hsetup.sound .empty hordinary
  have hfreezable {middle : World β} {early : List Reply}
      (hbefore : PerformsAll created before middle early) :=
    exists_freezable hsound hscripts hmade hearly hbefore
  constructor
  case ends =>
    intro after hafter
    have hcreated := hmade.sound hsound rfl
    have hfirst := ordinaryAll_of_early hearly
    obtain ⟨middle, early, hbefore⟩ := exists_performsAll hcreated hfirst
    obtain ⟨next, late, hlate⟩ := exists_performsAll (hbefore.sound hcreated hfirst)
      ((ordinaryAll_cons (freezeCell (some name)) after).mpr ⟨rfl, hafter⟩)
    exact ⟨next, _, performsAll_append.mpr ⟨middle, early, late, hbefore, hlate, rfl⟩⟩
  case freezes =>
    intro middle early hbefore
    obtain ⟨hmiddle, cell, hcell, hkind, rfl⟩ := hfreezable hbefore
    obtain ⟨next, reply, hperforms, hdecides, -⟩ := freezeCell_outcome hmiddle hcell hkind
    exact ⟨cell, next, reply, hcell, hkind, rfl, hperforms, hdecides⟩
  case succeeds =>
    intro middle early next hbefore hperforms
    obtain ⟨hmiddle, cell, hcell, hkind, -⟩ := hfreezable hbefore
    obtain ⟨last, reply, hlast, -, hfrozen, -⟩ := freezeCell_outcome hmiddle hcell hkind
    obtain ⟨rfl, rfl⟩ := hperforms.unique hlast
    exact hfrozen rfl
  case fails =>
    intro middle early next reply hbefore hperforms hfailed
    obtain ⟨hmiddle, cell, hcell, hkind, -⟩ := hfreezable hbefore
    obtain ⟨last, told, hlast, -, -, hkept⟩ := freezeCell_outcome hmiddle hcell hkind
    obtain ⟨rfl, rfl⟩ := hperforms.unique hlast
    exact ⟨hkept hfailed, fun after hafter => (hkept hfailed).performsAll hmiddle hafter⟩
  case alike =>
    intro hsteadfast haccepted haccepts
    obtain ⟨twin, hmadeTwin, htwin⟩ := withGuard_atomic hmade haccepted
    have hshared := shared_inStep hsound hscripts hmade hearly htwin haccepts
    have hfrozen {middle : World β} {early : List Reply}
        (hbefore : PerformsAll created before middle early) :=
      frozen_of_accepts hsound hscripts hmade hearly hsteadfast htwin
        (hmadeTwin.sound hsound rfl) haccepts hbefore
    refine ⟨?_, twin, hmadeTwin, hshared, fun after hafter => ?_⟩
    · intro middle early next reply hbefore hperforms
      obtain ⟨frozen, hfreezes, -⟩ := hfrozen hbefore
      exact (hfreezes.unique hperforms).2
    -- From the moment on that the cell is frozen, it is the atomic one.
    have hlater {middle other : World β} {early : List Reply}
        (hbefore : PerformsAll created before middle early)
        (hagrees : (middle.shareCell name).Agrees other) :
        ∃ frozen, (freezeCell (some name)).Performs middle frozen .ok ∧
          InStep World.Agrees (PerformsAll frozen after) (PerformsAll other after) := by
      obtain ⟨frozen, hfreezes, hsame⟩ := hfrozen hbefore
      have hkept : frozen.Sound 0 := hfreezes.sound (hfreezable hbefore).1 rfl
      exact ⟨frozen, hfreezes, (hsame.symm.trans hagrees).performsAll hkept hafter⟩
    constructor
    · intro last replies hall
      obtain ⟨middle, next, early, late, hbefore, hfreezes, hrest, rfl⟩ :=
        performsAll_insert.mp hall
      obtain ⟨other, hother, hagrees⟩ := hshared.forth _ _ hbefore
      obtain ⟨frozen, hsame, hstep⟩ := hlater hbefore hagrees
      obtain ⟨rfl, -⟩ := hfreezes.unique hsame
      obtain ⟨ended, hended, hlast⟩ := hstep.forth _ _ hrest
      exact ⟨ended, performsAll_append.mpr ⟨other, early, late, hother, hended, rfl⟩, hlast⟩
    · intro last replies hall
      obtain ⟨other, early, late, hother, hrest, rfl⟩ := performsAll_append.mp hall
      obtain ⟨middle, hbefore, hagrees⟩ := hshared.back _ _ hother
      obtain ⟨frozen, hfreezes, hstep⟩ := hlater hbefore hagrees
      obtain ⟨next, hnext, hlast⟩ := hstep.back _ _ hrest
      exact ⟨next, performsAll_insert.mpr ⟨middle, frozen, early, late, hbefore, hfreezes, hnext,
        rfl⟩, hlast⟩

/-- Two objects with even payloads.  One of them asks for the other one when it is destroyed. -/
def larder : List Operation :=
  [.alloc (some "a") (some (.int 2)) (some .mutable) [] [.info (some "b")],
    .alloc (some "b") (some (.int 4)) (some .frozen) [] []]

/-- One of the objects takes the place of the other one, whose last unit is dropped. -/
def refill : List Operation :=
  [.onCell (some "c") .set (.named "b") .empty none,
    .onCell (some "c") .get .empty .empty (some "d"),
    .drop (some "a")]

/-- The world with the objects. -/
def stocked : World Staged :=
  larder.foldl (fun world op => (op.start 0 world).1) {}

/-- The world with the objects and the cell. -/
def shelved : World Staged :=
  ((withGuard .freezable "c" .evenPayload (.named "a")).start 0 stocked).1

theorem freezing_unnoticed_refill :
    (∃ told, PerformsAll {} larder stocked told) ∧ ordinaryAll larder = true ∧
      (∀ obj object, stocked.object? obj = some object →
        suitsAll true (some "c") object.script = true) ∧
      (withGuard .freezable "c" .evenPayload (.named "a")).Performs stocked shelved .ok ∧
      (∀ op ∈ refill, op.Early "c") ∧ Guard.evenPayload.Steadfast ∧
      (∀ obj, (Arg.named "a").unit? stocked = some obj →
        Guard.evenPayload.accepts (stocked.facts obj) = true) ∧
      Accepts "c" .evenPayload shelved refill ∧
      Unnoticed "c" .evenPayload (.named "a") stocked shelved refill := by
  have hsetup : PerformsAll {} larder stocked [.unit (some 0), .unit (some 1)] :=
    .cons (performs_of_start (by with_unfolding_all rfl))
      (.cons (performs_of_start (by with_unfolding_all rfl)) (.nil stocked))
  have hscripts : ∀ obj object, stocked.object? obj = some object →
      suitsAll true (some "c") object.script = true := by
    have hall : (stocked.objects.all fun object => suitsAll true (some "c") object.script) = true := by
      decide +kernel
    exact fun obj object hobject =>
      Array.all_eq_true_iff_forall_mem.mp hall object (Array.mem_of_getElem? hobject)
  have hmade : (withGuard .freezable "c" .evenPayload (.named "a")).Performs stocked shelved .ok :=
    performs_of_start (by with_unfolding_all rfl)
  have hearly : ∀ op ∈ refill, op.Early "c" := by
    refine List.forall_mem_cons.mpr ⟨.inr ⟨_, _, _, _, _, .set, rfl⟩, ?_⟩
    refine List.forall_mem_cons.mpr ⟨.inr ⟨_, _, _, _, _, .get, rfl⟩, ?_⟩
    exact List.forall_mem_singleton.mpr (.inl (by decide))
  have haccepted : ∀ obj, (Arg.named "a").unit? stocked = some obj →
      Guard.evenPayload.accepts (stocked.facts obj) = true := by
    have hunit : (Arg.named "a").unit? stocked = some 0 := by decide +kernel
    intro obj hobj
    obtain rfl := Option.some.inj (hunit.symm.trans hobj)
    decide +kernel
  have haccepts : Accepts "c" .evenPayload shelved refill := by
    have hunit : (Arg.named "b").unit? shelved = some 1 := by decide +kernel
    refine ⟨fun obj hobj => ?_, fun _ _ _ => ⟨fun _ hobj => ?_, fun _ _ _ => ⟨fun _ hobj => ?_,
      fun _ _ _ => trivial⟩⟩⟩
    · obtain rfl := Option.some.inj (hunit.symm.trans hobj)
      decide +kernel
    · cases hobj
    · cases hobj
  exact ⟨⟨_, hsetup⟩, by decide, hscripts, hmade, hearly,
    Guard.steadfast_custom .evenPayload (by simp [Guard.custom]), haccepted, haccepts,
    freezing_unnoticed hsetup (by decide) hscripts hmade hearly⟩

end Operation

end SharedCell
