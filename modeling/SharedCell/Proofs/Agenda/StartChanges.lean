import Mathlib
import SharedCell.Proofs.Ownership.Start

/-!
# What operations begin with

Most operations begin with checks, with entries in the tables of handles, raw units and events, and
with the use of a cell.  A relation between worlds that takes no notice of these holds between the
worlds before and after.  The few operations that do more acquire a unit through a handle, freeze
its object, or make or take out a cell.
-/

namespace SharedCell

open Operation

variable {β : Type} {relation : World β → World β → Prop}

namespace World

/-- A relation between worlds that looks at objects and cells only, and not at whether cells are in
use. -/
structure Lax (relation : World β → World β → Prop) : Prop where
  tables {world next : World β} (hobjects : next.objects = world.objects)
    (hcells : next.cells = world.cells) : relation world next
  use (world : World β) (name : String) (thread : ℕ) (looks : Bool) :
    relation world (world.useCell name thread looks)
  trans {world between next : World β} (hfirst : relation world between)
    (hsecond : relation between next) : relation world next

/-- A relation between worlds that the routine of beginnings respects. -/
structure Lenient (thread : ℕ) (relation : World β → World β → Prop) : Prop where
  refl (world : World β) : relation world world
  trans {world between next : World β} (hfirst : relation world between)
    (hsecond : relation between next) : relation world next
  raws (world : World β) (raws : List (String × ObjectId)) : relation world { world with raws }
  ask (world : World β) (guard : Guard) (obj : ObjectId) :
    relation world (world.ask thread guard obj)
  reject (world : World β) (obj : ObjectId) : relation world (world.trace thread (.rejected obj))
  eraseHolder (world : World β) (id : ℕ) : relation world (world.eraseHolder id)
  useHolder (world : World β) (id : ℕ) :
    relation world (world.modifyHolder id fun holder => { holder with users := holder.users + 1 })
  monopolize (world : World β) (id : ℕ) :
    relation world (world.modifyHolder id ({ · with users := 1, exclusive := true }))
  useCell (world : World β) (name : String) (looks : Bool) :
    relation world (world.useCell name thread looks)

theorem Lax.lenient (hlax : Lax relation) (thread : ℕ) : Lenient thread relation where
  refl _ := hlax.tables rfl rfl
  trans := hlax.trans
  raws _ _ := hlax.tables rfl rfl
  ask world guard obj := by
    obtain ⟨log, hasked⟩ := world.exists_asked thread guard obj
    rw [hasked]
    exact hlax.tables rfl rfl
  reject world obj := by
    obtain ⟨log, htraced⟩ := world.exists_traced thread (.rejected obj)
    rw [htraced]
    exact hlax.tables rfl rfl
  eraseHolder _ _ := hlax.tables rfl rfl
  useHolder _ _ := hlax.tables rfl rfl
  monopolize _ _ := hlax.tables rfl rfl
  useCell world name looks := hlax.use world name thread looks

theorem Lenient.useAll {thread : ℕ} (hlenient : Lenient thread relation) (world : World β)
    (ids : List ℕ) :
    relation world (ids.foldl (fun world id => world.modifyHolder id fun holder =>
      { holder with users := holder.users + 1 }) world) := by
  induction ids generalizing world with
  | nil => exact hlenient.refl world
  | cons id ids ih => exact hlenient.trans (hlenient.useHolder world id) (ih _)

end World

/-- The operations that begin with a change to objects or cells. -/
def Operation.touches : Operation → Bool
  | .alloc .. | .clone .. | .freeze .. | .newCell .. | .dropCell .. | .intoInner .. => true
  | _ => false

/-- The operation makes an object. -/
def Operation.allocates : Operation → Bool
  | .alloc .. => true
  | _ => false

/-- The name of the cell that an operation makes. -/
def Operation.made? : Operation → Option String
  | .newCell cell .. => cell
  | _ => none

/-- The name of the cell that an operation takes out of the table. -/
def Operation.erased? : Operation → Option String
  | .dropCell cell | .intoInner cell _ => cell
  | _ => none

/-- A relation between worlds that respects whatever an operation begins with in a world.  Units are
acquired and objects are frozen through handles that can be used. -/
structure World.Admits [Resident β] (world : World β) (thread : ℕ) (op : Operation)
    (relation : World β → World β → Prop) : Prop where
  lenient : Lenient thread relation
  acquire {holder : Holder} (hholder : holder ∈ world.holders) (hshared : holder.exclusive = false)
    (before : World β) : relation before (before.acquire thread holder.unit)
  freeze {holder : Holder} (hholder : holder ∈ world.holders) (hshared : holder.exclusive = false)
    (before : World β) : relation before (before.modifyObject holder.unit fun object =>
      { object with body := Resident.freeze object.body })
  make {name : String} (hmade : op.made? = some name) (before : World β) (kind : CellKind)
    (guard : Guard) (content : Option ObjectId) :
    relation before (before.addCell name { kind, guard, slot := { content } })
  erase {name : String} (herased : op.erased? = some name) (before : World β) :
    relation before (before.eraseCell name)

namespace Attempt

variable {α γ : Type}

/-- An attempt whose worlds, before and after, are related. -/
def Relates (relation : World β → World β → Prop) (attempt : Attempt β α) : Prop :=
  ∀ world value next, attempt.run world = .ok (value, next) → relation world next

variable {thread : ℕ} (hlenient : World.Lenient thread relation)

include hlenient

theorem Stays.relates {attempt : Attempt β α} (hstays : attempt.Stays) :
    attempt.Relates relation := by
  intro world value next hrun
  obtain rfl := hstays world value next hrun
  exact hlenient.refl _

theorem Replies.relates {attempt : Attempt β Frame} (hreplies : attempt.Replies) :
    attempt.Relates relation :=
  Stays.relates hlenient fun world frame next hrun => (hreplies world frame next hrun).1

theorem Relates.bind {attempt : Attempt β α} {rest : α → Attempt β γ}
    (hrelates : attempt.Relates relation) (hrest : ∀ value, (rest value).Relates relation) :
    (attempt >>= rest).Relates relation := by
  intro world result next hrun
  obtain ⟨value, between, hattempt, hrun⟩ := run_bind.mp hrun
  exact hlenient.trans (hrelates _ _ _ hattempt) (hrest value _ _ _ hrun)

/-- An attempt that begins with a check. -/
theorem Stays.then_relates {attempt : Attempt β α} {rest : α → Attempt β γ}
    (hstays : attempt.Stays) (hrest : ∀ value, (rest value).Relates relation) :
    (attempt >>= rest).Relates relation :=
  (hstays.relates hlenient).bind hlenient hrest

omit hlenient in
theorem relates_modify {change : World β → World β}
    (hchange : ∀ world, relation world (change world)) :
    (modify change : Attempt β PUnit).Relates relation := by
  intro world result next hrun
  rw [run_modify.mp hrun]
  exact hchange world

theorem relates_pure (value : α) : (pure value : Attempt β α).Relates relation :=
  (stays_pure value).relates hlenient

theorem relates_throw (fault : Fault) : (throw fault : Attempt β α).Relates relation :=
  (stays_throw fault).relates hlenient

theorem relates_answer (reply : Reply) : (answer reply : Attempt β Frame).Relates relation :=
  relates_pure hlenient _

theorem relates_pull (name : Option String) :
    (pull name : Attempt β ObjectId).Relates relation :=
  (stays_handle name).then_relates hlenient fun _ => (stays_require _ _).then_relates hlenient fun _ =>
    (relates_modify fun world => hlenient.eraseHolder world _).bind hlenient fun _ =>
      relates_pure hlenient _

theorem relates_use (found : List (Option Holder)) :
    (use found : Attempt β (List ℕ)).Relates relation :=
  (relates_modify fun world => hlenient.useAll world _).bind hlenient fun _ => relates_pure hlenient _

theorem relates_makeCall (name : String) (cell : Cell) (action : Action)
    (target copy : Option String) (found : List (Option Holder)) :
    (makeCall thread name cell action target copy found : Attempt β Call).Relates relation :=
  (relates_use hlenient found).bind hlenient fun _ =>
    (relates_modify fun world => hlenient.useCell world name _).bind hlenient fun _ =>
      relates_pure hlenient _

theorem relates_freezeCell (cell : Option String) :
    (startFreezeCell thread cell : Attempt β Frame).Relates relation :=
  (stays_cell cell).then_relates hlenient fun _ => (stays_require _ _).then_relates hlenient fun _ =>
    (stays_require _ _).then_relates hlenient fun _ =>
      (relates_makeCall hlenient _ _ _ _ _ _).bind hlenient fun _ => relates_pure hlenient _

variable [Resident β]

theorem relates_onCell (cell : Option String) (verb : Verb) (new expected : Arg)
    (target : Option String) :
    (startOnCell thread cell verb new expected target : Attempt β Frame).Relates relation := by
  refine (stays_cell cell).then_relates hlenient fun found =>
    (stays_require _ _).then_relates hlenient fun _ => (stays_arg new).then_relates hlenient fun new =>
      (stays_comparand _ verb expected).then_relates hlenient fun compared =>
        (stays_copyName _ verb).then_relates hlenient fun copy => ?_
  split
  · exact relates_answer hlenient _
  · exact relates_throw hlenient _
  · exact relates_throw hlenient _
  · split
    · exact relates_throw hlenient _
    · exact (relates_makeCall hlenient _ _ _ _ _ _).bind hlenient fun _ => relates_pure hlenient _

theorem relates_consult (guard : Guard) (unit : Option ObjectId) :
    (consult thread guard unit : Attempt β Bool).Relates relation := by
  cases unit with
  | none => exact relates_pure hlenient true
  | some obj =>
    exact stays_get.then_relates hlenient fun _ =>
      (relates_modify fun world => hlenient.ask world guard obj).bind hlenient fun _ =>
        relates_pure hlenient _

theorem relates_enforce (guard : Guard) (unit : Option ObjectId) :
    (enforce thread guard unit : Attempt β (Option ObjectId)).Relates relation := by
  refine (relates_consult hlenient guard unit).bind hlenient fun accepted => ?_
  split
  · exact relates_pure hlenient none
  · cases unit with
    | none => exact (stays_pure _).then_relates hlenient fun _ => relates_pure hlenient _
    | some obj =>
      exact (relates_modify fun world => hlenient.reject world obj).bind hlenient fun _ =>
        relates_pure hlenient _

theorem relates_begin {op : Operation} (hordinary : op.ordinary = true)
    (htouches : op.touches = false) : (begin? thread op : Attempt β Frame).Relates relation := by
  cases op with
  | alloc | clone | freeze | newCell | dropCell | intoInner => cases htouches
  | race | stress =>
    rw [Operation.ordinary] at hordinary
    cases hordinary
  | malformed => exact relates_throw hlenient _
  | drop source => exact (relates_pull hlenient source).bind hlenient fun _ => relates_pure hlenient _
  | info source => exact (replies_info source).relates hlenient
  | mutate value source =>
    cases value with
    | none => exact relates_throw hlenient _
    | some payload =>
      exact (stays_handle source).then_relates hlenient fun _ =>
        (stays_require _ _).then_relates hlenient fun _ =>
          (stays_require _ _).then_relates hlenient fun _ =>
            (relates_modify fun world => hlenient.monopolize world _).bind hlenient fun _ =>
              relates_pure hlenient _
  | sameObject left right => exact (replies_sameObject thread left right).relates hlenient
  | compare left right => exact (replies_compare left right).relates hlenient
  | hash source => exact (replies_hash source).relates hlenient
  | identity source => exact (replies_identity source).relates hlenient
  | debug source layout => exact (replies_debug source layout).relates hlenient
  | display source layout => exact (replies_display source layout).relates hlenient
  | intoRaw raw source =>
    exact (stays_field raw).then_relates hlenient fun _ => stays_get.then_relates hlenient fun _ =>
      (stays_require _ _).then_relates hlenient fun _ =>
        (relates_pull hlenient source).bind hlenient fun _ => (relates_modify fun world => hlenient.raws world _).bind hlenient fun _ =>
          relates_answer hlenient _
  | fromRaw target raw =>
    refine (stays_field target).then_relates hlenient fun _ =>
      (stays_field raw).then_relates hlenient fun _ => stays_get.then_relates hlenient fun world => ?_
    split
    · exact relates_throw hlenient _
    · exact (relates_modify fun world => hlenient.raws world _).bind hlenient fun _ =>
        relates_pure hlenient _
  | check source guard =>
    exact (stays_arg source).then_relates hlenient fun _ =>
      (stays_guardOf guard).then_relates hlenient fun _ =>
        (relates_consult hlenient _ _).bind hlenient fun _ => relates_answer hlenient _
  | ensure source guard =>
    refine (stays_arg source).then_relates hlenient fun _ =>
      (stays_guardOf guard).then_relates hlenient fun _ =>
        (relates_enforce hlenient _ _).bind hlenient fun _ => ?_
    split <;> exact relates_answer hlenient _
  | compareErrors left right =>
    refine (stays_handle left).then_relates hlenient fun _ =>
      (stays_handle right).then_relates hlenient fun _ =>
        (relates_enforce hlenient _ _).bind hlenient fun _ =>
          (relates_enforce hlenient _ _).bind hlenient fun _ => ?_
    split <;> exact relates_answer hlenient _
  | freezeCell cell => exact relates_freezeCell hlenient cell
  | onCell cell verb new expected target => exact relates_onCell hlenient cell verb new expected target
  | rounds count body =>
    refine (stays_field count).then_relates hlenient fun _ =>
      (stays_field body).then_relates hlenient fun _ => ?_
    split
    · exact relates_answer hlenient _
    · exact relates_pure hlenient _

/-! ## Operations that do more -/

omit hlenient

variable {world next : World β} {op : Operation} {frame : Frame}

theorem newCell_relates {cell : Option String} {guard : GuardArg} {value : Arg}
    {kind : Option (Option CellKind)} {origin : Option Origin} {source : Option String}
    (hadmits : world.Admits thread (.newCell cell guard value kind origin source) relation)
    (hrun : (startNewCell thread cell guard value kind origin source : Attempt β Frame).run world =
      .ok (frame, next)) : relation world next := by
  have hlenient := hadmits.lenient
  obtain ⟨name, hname, hrun⟩ := bind_stays (stays_newCellName cell) hrun
  obtain ⟨given, -, hrun⟩ := bind_stays (stays_guardOf guard) hrun
  obtain ⟨value, hvalue, hrun⟩ := bind_arg hrun
  obtain ⟨kind, -, hrun⟩ := bind_field hrun
  have hmake := hadmits.make (newCellName_run hname).1
  have hadd (kind : CellKind) (guard : Guard) (content : Option ObjectId) :
      (addCell name kind guard content : Attempt β Frame).Relates relation :=
    (relates_modify fun world => hmake world kind guard content).bind hlenient fun _ =>
      relates_answer hlenient _
  have hacquire : (value.map (·.unit) |>.forM fun obj => modify (·.acquire thread obj) :
      Attempt β Unit).Relates relation := by
    cases value with
    | none => exact relates_pure hlenient _
    | some holder =>
      obtain ⟨hholder, hshared⟩ := hvalue holder rfl
      exact relates_modify fun world => hadmits.acquire hholder hshared world
  refine (?_ : Attempt.Relates relation _) world frame next hrun
  split
  · refine (relates_enforce hlenient given _).bind hlenient fun rejected => ?_
    split
    · exact relates_answer hlenient _
    · exact hacquire.bind hlenient fun _ => hadd _ _ _
  · exact hadd _ _ _
  · exact hadd _ _ _
  · exact hacquire.bind hlenient fun _ => hadd _ _ _
  · exact hadd _ _ _
  · exact hacquire.bind hlenient fun _ => hadd _ _ _
  · exact (relates_use hlenient _).bind hlenient fun _ =>
      (relates_pull hlenient source).bind hlenient fun moved =>
        (relates_modify fun world => hmake world .slot .standard (some moved)).bind hlenient
          fun _ => relates_pure hlenient _
  · exact relates_throw hlenient _

/-- An allocation acquires units through handles that can be used, before it makes its object. -/
theorem gather_relates (hadmits : world.Admits thread op relation) (refs : List (Option String)) :
    relation world (gather thread refs world).1 := by
  -- No handle changes meanwhile.
  suffices hall : ∀ before : World β, before.holders = world.holders →
      relation before (gather thread refs before).1 from hall world rfl
  induction refs with
  | nil => exact fun before _ => hadmits.lenient.refl before
  | cons ref refs ih =>
    intro before hsame
    rw [gather]
    split
    · exact hadmits.lenient.refl before
    · rename_i holder hfound
      obtain ⟨hholder, hshared⟩ := shared_of_gathered hfound
      exact hadmits.lenient.trans (hadmits.acquire (hsame ▸ hholder) hshared before) (ih _ hsame)

/-- An operation that makes no object begins with what a relation admits. -/
theorem begin_relates (hordinary : op.ordinary = true) (hexisting : op.allocates = false)
    (hadmits : world.Admits thread op relation)
    (hrun : (begin? thread op : Attempt β Frame).run world = .ok (frame, next)) :
    relation world next := by
  have hlenient := hadmits.lenient
  cases op with
  | alloc => cases hexisting
  | clone source target =>
    obtain ⟨holder, hholder, hshared, hrun⟩ := bind_handle hrun
    refine (?_ : Attempt.Relates relation _) world frame next hrun
    exact (stays_field target).then_relates hlenient fun _ =>
      (relates_use hlenient _).bind hlenient fun _ =>
        (relates_modify (hadmits.acquire hholder hshared)).bind hlenient fun _ =>
          relates_pure hlenient _
  | freeze source =>
    obtain ⟨holder, hholder, hshared, hrun⟩ := bind_handle hrun
    refine (?_ : Attempt.Relates relation _) world frame next hrun
    exact (relates_modify (hadmits.freeze hholder hshared)).bind hlenient fun _ =>
      relates_answer hlenient _
  | newCell cell guard value kind origin source => exact newCell_relates hadmits hrun
  | dropCell cell =>
    obtain ⟨name, found, hname, -, -, rfl, -⟩ := dropCell_run hrun
    exact hadmits.erase hname world
  | intoInner cell target =>
    obtain ⟨name, found, hname, -, -, rfl, -⟩ := intoInner_run hrun
    exact hadmits.erase hname world
  | _ => exact relates_begin hlenient hordinary rfl world frame next hrun

end Attempt

end SharedCell
