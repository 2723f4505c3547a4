import Mathlib
import SharedCell.Proofs.Ownership.Begun

/-!
# Beginnings of operations on objects

Most operations on objects look at the world and answer.  The others acquire a unit, move it from
one table to another, or get hold of an object's body.
-/

namespace SharedCell

open Attempt Operation

variable {β : Type} {α γ : Type}

namespace Attempt

/-! ## Attempts that answer -/

/-- An attempt that does not change the world and leads to nothing but a reply. -/
def Replies (attempt : Attempt β Frame) : Prop :=
  ∀ world frame next, attempt.run world = .ok (frame, next) →
    next = world ∧ ∃ reply, frame = .tidy [] reply

theorem replies_answer (reply : Reply) : (answer reply : Attempt β Frame).Replies := by
  intro world frame next hrun
  obtain ⟨rfl, rfl⟩ := run_pure.mp hrun
  exact ⟨rfl, reply, rfl⟩

theorem Stays.replies {attempt : Attempt β α} {rest : α → Attempt β Frame}
    (hstays : attempt.Stays) (hrest : ∀ value, (rest value).Replies) :
    (attempt >>= rest).Replies := by
  intro world frame next hrun
  obtain ⟨value, -, hrun⟩ := bind_stays hstays hrun
  exact hrest value _ _ _ hrun

theorem stays_guardOf (guard : GuardArg) : (guardOf guard : Attempt β Guard).Stays := by
  cases guard with
  | absent => exact stays_pure _
  | given guard => exact stays_pure _
  | malformed => exact stays_throw _

section Resident

variable [Resident β]

theorem replies_info (source : Option String) : (startInfo source : Attempt β Frame).Replies :=
  (stays_handle source).replies fun _ => stays_get.replies fun _ => replies_answer _

theorem replies_compare (left right : Option String) :
    (startCompare left right : Attempt β Frame).Replies :=
  (stays_handle left).replies fun _ => (stays_handle right).replies fun _ =>
    (stays_require _ _).replies fun _ =>
      (stays_get.bind fun _ => stays_pure _).replies fun _ =>
        (stays_get.bind fun _ => stays_pure _).replies fun _ => replies_answer _

theorem replies_hash (source : Option String) : (startHash source : Attempt β Frame).Replies :=
  (stays_handle source).replies fun _ => (stays_require _ _).replies fun _ =>
    stays_get.replies fun _ => replies_answer _

omit [Resident β] in
theorem replies_identity (source : Option String) :
    (startIdentity source : Attempt β Frame).Replies :=
  (stays_handle source).replies fun _ => replies_answer _

theorem replies_debug (source : Option String) (layout : Option Text.Layout) :
    (startDebug source layout : Attempt β Frame).Replies :=
  (stays_handle source).replies fun _ => (stays_field layout).replies fun _ =>
    stays_get.replies fun _ => replies_answer _

theorem replies_display (source : Option String) (layout : Option (Option Text.Layout)) :
    (startDisplay source layout : Attempt β Frame).Replies :=
  (stays_handle source).replies fun _ => (stays_field layout).replies fun known =>
    (stays_require _ _).replies fun _ => (stays_field known).replies fun _ =>
      stays_get.replies fun _ => replies_answer _

theorem replies_sameObject (thread : ℕ) (left right : Option String) :
    (begin? thread (.sameObject left right) : Attempt β Frame).Replies :=
  (stays_handle left).replies fun _ => (stays_handle right).replies fun _ => replies_answer _

variable {world next : World β} {stakes : Stakes} {thread : ℕ} {frame : Frame}

theorem Replies.begun {attempt : Attempt β Frame} (hreplies : attempt.Replies)
    (hsound : world.Sound stakes) (hrun : attempt.run world = .ok (frame, next)) :
    Begun stakes next frame := by
  obtain ⟨rfl, reply, rfl⟩ := hreplies world frame next hrun
  exact begun_answer hsound reply

/-! ## Guards -/

/-- Asking a guard is logged at most, and what it accepts can be seen afterwards too. -/
theorem consult_run {guard : Guard} {unit : Option ObjectId} {accepted : Bool}
    (hsound : world.Sound stakes)
    (hrun : (consult thread guard unit : Attempt β Bool).run world = .ok (accepted, next)) :
    next.Sound stakes ∧ (∃ log, next = { world with log }) ∧
      (accepted = true → ∀ obj, unit = some obj → guard.accepts (next.facts obj) = true) := by
  cases unit with
  | none =>
    obtain ⟨rfl, rfl⟩ := run_pure.mp hrun
    exact ⟨hsound, ⟨_, rfl⟩, fun _ obj hobj => by cases hobj⟩
  | some obj =>
    have hasked := bind_modify (bind_get hrun)
    obtain ⟨rfl, rfl⟩ := run_pure.mp hasked
    refine ⟨hsound.ask, world.exists_asked thread guard obj, ?_⟩
    rintro haccepts other heq
    obtain rfl := Option.some.inj heq
    obtain ⟨log, hasked⟩ := world.exists_asked thread guard obj
    rw [hasked]
    exact haccepts

theorem enforce_run {guard : Guard} {unit rejected : Option ObjectId}
    (hsound : world.Sound stakes)
    (hrun : (enforce thread guard unit : Attempt β (Option ObjectId)).run world =
      .ok (rejected, next)) :
    next.Sound stakes ∧ (∃ log, next = { world with log }) ∧
      (rejected = none → ∀ obj, unit = some obj → guard.accepts (next.facts obj) = true) := by
  rw [enforce] at hrun
  obtain ⟨accepted, asked, hconsult, hrun⟩ := run_bind.mp hrun
  obtain ⟨hasked, ⟨log, rfl⟩, haccepts⟩ := consult_run hsound hconsult
  split at hrun
  · rename_i htrue
    obtain ⟨rfl, rfl⟩ := run_pure.mp hrun
    exact ⟨hasked, ⟨log, rfl⟩, fun _ => haccepts htrue⟩
  · cases unit with
    | none =>
      obtain ⟨_, _, hrest⟩ := bind_stays (stays_pure _) hrun
      obtain ⟨rfl, rfl⟩ := run_pure.mp hrest
      exact ⟨hasked, ⟨log, rfl⟩, fun _ obj hobj => by cases hobj⟩
    | some obj =>
      have hreported := bind_modify hrun
      obtain ⟨rfl, rfl⟩ := run_pure.mp hreported
      obtain ⟨reported, htraced⟩ :=
        World.exists_traced { world with log } thread (.rejected obj)
      exact ⟨hasked.remark trivial, ⟨reported, htraced⟩, fun hnone => by cases hnone⟩

theorem check_begun {source : Arg} {guard : GuardArg} (hsound : world.Sound stakes)
    (hrun : (startCheck thread source guard : Attempt β Frame).run world = .ok (frame, next)) :
    Begun stakes next frame := by
  rw [startCheck] at hrun
  obtain ⟨holder, -, hrun⟩ := bind_arg hrun
  obtain ⟨guard, -, hrun⟩ := bind_stays (stays_guardOf guard) hrun
  obtain ⟨accepted, asked, hconsult, hrun⟩ := run_bind.mp hrun
  exact (replies_answer _).begun (consult_run hsound hconsult).1 hrun

theorem ensure_begun {source : Arg} {guard : GuardArg} (hsound : world.Sound stakes)
    (hrun : (startEnsure thread source guard : Attempt β Frame).run world = .ok (frame, next)) :
    Begun stakes next frame := by
  rw [startEnsure] at hrun
  obtain ⟨holder, -, hrun⟩ := bind_arg hrun
  obtain ⟨guard, -, hrun⟩ := bind_stays (stays_guardOf guard) hrun
  obtain ⟨rejected, asked, henforce, hrun⟩ := run_bind.mp hrun
  have hasked := (enforce_run hsound henforce).1
  split at hrun <;> exact (replies_answer _).begun hasked hrun

theorem compareErrors_begun {left right : Option String} (hsound : world.Sound stakes)
    (hrun : (startCompareErrors thread left right : Attempt β Frame).run world =
      .ok (frame, next)) :
    Begun stakes next frame := by
  rw [startCompareErrors] at hrun
  obtain ⟨left, -, -, hrun⟩ := bind_handle hrun
  obtain ⟨right, -, -, hrun⟩ := bind_handle hrun
  obtain ⟨first, asked, hfirst, hrun⟩ := run_bind.mp hrun
  have hasked := (enforce_run hsound hfirst).1
  obtain ⟨second, later, hsecond, hrun⟩ := run_bind.mp hrun
  have hlater := (enforce_run hasked hsecond).1
  split at hrun <;> exact (replies_answer _).begun hlater hrun

/-! ## Units -/

/-- A handle that nothing uses leaves the table with its unit in hand. -/
theorem pull_sound {name : Option String} {unit : ObjectId} (hsound : world.Sound stakes)
    (hrun : (pull name : Attempt β ObjectId).run world = .ok (unit, next)) :
    next.Sound (.unitsOn {unit} + stakes) ∧ ∃ holders, next = { world with holders } := by
  obtain ⟨holder, hholder, hunused, rfl, rfl⟩ := pull_run hrun
  have husers := hsound.held.users holder hholder
  rw [hunused] at husers
  exact ⟨hsound.eraseHolder hholder (Multiset.count_eq_zero.mp husers.symm), _, rfl⟩

theorem drop_begun {source : Option String} (hsound : world.Sound stakes)
    (hrun : (begin? thread (.drop source) : Attempt β Frame).run world = .ok (frame, next)) :
    Begun stakes next frame := by
  obtain ⟨unit, pulled, hpull, hrun⟩ := run_bind.mp hrun
  obtain ⟨rfl, rfl⟩ := run_pure.mp hrun
  refine ⟨?_, rfl⟩
  simpa [Frame.stakes, Chore.stakes] using (pull_sound hsound hpull).1

theorem intoRaw_begun {raw source : Option String} (hsound : world.Sound stakes)
    (hrun : (startIntoRaw raw source : Attempt β Frame).run world = .ok (frame, next)) :
    Begun stakes next frame := by
  rw [startIntoRaw] at hrun
  obtain ⟨raw, -, hrun⟩ := bind_field hrun
  obtain ⟨hnew, hrun⟩ := bind_require (bind_get hrun)
  obtain ⟨unit, pulled, hpull, hrun⟩ := run_bind.mp hrun
  obtain ⟨hpulled, holders, rfl⟩ := pull_sound hsound hpull
  have hadded := hpulled.addRaw (Option.isNone_iff_eq_none.mp hnew)
  exact (replies_answer _).begun hadded (bind_modify hrun)

theorem fromRaw_begun {target raw : Option String} (hsound : world.Sound stakes)
    (hrun : (startFromRaw target raw : Attempt β Frame).run world = .ok (frame, next)) :
    Begun stakes next frame := by
  rw [startFromRaw] at hrun
  obtain ⟨target, -, hrun⟩ := bind_field hrun
  obtain ⟨raw, -, hrun⟩ := bind_field hrun
  have hlookup := bind_get hrun
  split at hlookup
  · exact (run_throw.mp hlookup).elim
  · rename_i unit hunit
    have herased := bind_modify hlookup
    obtain ⟨rfl, rfl⟩ := run_pure.mp herased
    refine ⟨?_, rfl⟩
    simpa [Frame.stakes, Chore.stakes] using hsound.eraseRaw hunit

theorem mutate_begun {value : Option Payload} {source : Option String} (hsound : world.Sound stakes)
    (hrun : (startMutate value source : Attempt β Frame).run world = .ok (frame, next)) :
    Begun stakes next frame := by
  cases value with
  | none => exact (run_throw.mp hrun).elim
  | some payload =>
    rw [startMutate] at hrun
    obtain ⟨holder, hholder, -, hrun⟩ := bind_handle hrun
    obtain ⟨hunused, hrun⟩ := bind_require hrun
    obtain ⟨-, hrun⟩ := bind_require hrun
    have hmonopolized := bind_modify hrun
    obtain ⟨rfl, rfl⟩ := run_pure.mp hmonopolized
    exact ⟨hsound.monopolize hholder (of_decide_eq_true hunused), rfl⟩

variable [Lawful β]

theorem freeze_begun {source : Option String} (hsound : world.Sound stakes)
    (hrun : (startFreeze source : Attempt β Frame).run world = .ok (frame, next)) :
    Begun stakes next frame := by
  rw [startFreeze] at hrun
  obtain ⟨holder, -, -, hrun⟩ := bind_handle hrun
  exact (replies_answer _).begun hsound.freeze (bind_modify hrun)

theorem clone_begun {source target : Option String} (hsound : world.Sound stakes)
    (hrun : (startClone thread source target : Attempt β Frame).run world = .ok (frame, next)) :
    Begun stakes next frame := by
  rw [startClone] at hrun
  obtain ⟨holder, hholder, hshared, hrun⟩ := bind_handle hrun
  obtain ⟨target, -, hrun⟩ := bind_field hrun
  obtain ⟨ids, used, huse, hrun⟩ := run_bind.mp hrun
  obtain ⟨hused, holders, rfl, hkept⟩ := use_run hsound (by simp_all) huse
  obtain ⟨-, held, hheld, -, hunit⟩ := hkept holder (List.mem_singleton_self _)
  have hcounted := bind_modify hrun
  obtain ⟨rfl, rfl⟩ := run_pure.mp hcounted
  have hacquired := hused.acquire thread
    (Multiset.mem_add.mpr (.inl (hunit ▸ World.owned_of_holder hheld)))
  refine ⟨?_, ordinary_endUses ids⟩
  rw [Frame.stakes, List.map_cons, List.sum_cons, stakes_endUses, add_assoc]
  exact hacquired

omit [Resident β] [Lawful β] in
/-- What is acquired for a reference is found through a handle that can be used. -/
theorem shared_of_gathered {ref : Option String} {holder : Holder}
    (hfound : (ref.bind world.holder?).filter (!·.exclusive) = some holder) :
    holder ∈ world.holders ∧ holder.exclusive = false := by
  obtain ⟨hnamed, hshared⟩ := Option.filter_eq_some_iff.mp hfound
  obtain ⟨name, -, hholder⟩ := Option.bind_eq_some_iff.mp hnamed
  exact ⟨List.mem_of_find?_eq_some hholder, by simpa using hshared⟩

/-- An allocation that fails owns the units that it has got on its references. -/
theorem gather_sound {refs : List (Option String)} (hsound : world.Sound stakes) :
    (gather thread refs world).1.Sound (.unitsOn ↑(gather thread refs world).2.1 + stakes) := by
  induction refs generalizing world stakes with
  | nil => simpa [gather] using hsound
  | cons ref refs ih =>
    rw [gather]
    split
    · simpa using hsound
    · rename_i holder hfound
      have hacquired := hsound.acquire thread
        (Multiset.mem_add.mpr (.inl (World.owned_of_holder (shared_of_gathered hfound).1)))
      have hrest := ih hacquired
      rw [add_left_comm, ← add_assoc, ← Stakes.unitsOn_add, Multiset.singleton_add,
        Multiset.cons_coe] at hrest
      exact hrest

omit [Lawful β] in
/-- An allocation gives back the units that it has got on its references, or makes an object of
them. -/
theorem alloc_run {object : Option String} {value : Option Payload}
    {mutability : Option Mutability} {refs : List (Option String)} {script : List Operation}
    (hrun : (startAlloc thread object value mutability refs script : Attempt β Frame).run world =
      .ok (frame, next)) :
    (∃ fault, frame = .tidy ((gather thread refs world).2.1.map .release) (.fault fault) ∧
      next = (gather thread refs world).1) ∨
    ∃ name mutability payload body, Resident.make mutability payload = some body ∧
      ∃ added obj, (gather thread refs world).1.addObject
          { name, body, refs := (gather thread refs world).2.1, script } = (added, obj) ∧
        frame = .tidy [] (.unit (some obj)) ∧ next = added.addHolder name obj := by
  rw [startAlloc] at hrun
  obtain ⟨name, -, hrun⟩ := bind_field hrun
  cases value with
  | none => exact (run_throw.mp hrun).elim
  | some payload =>
    obtain ⟨mutability, -, hrun⟩ := bind_field hrun
    obtain ⟨-, hrun⟩ := bind_require (bind_get hrun)
    obtain ⟨-, hrun⟩ := bind_require (bind_get hrun)
    have hrest := bind_get hrun
    generalize gather thread refs world = gathered at hrest
    obtain ⟨between, units, complete⟩ := gathered
    simp only at hrest
    split at hrest
    · have hset := bind_set hrest
      obtain ⟨rfl, rfl⟩ := run_pure.mp hset
      exact .inl ⟨.unknownHandle, rfl, rfl⟩
    · have hset := bind_set hrest
      obtain ⟨rfl, rfl⟩ := run_pure.mp hset
      exact .inl ⟨.unsupported, rfl, rfl⟩
    · rename_i body hmake
      have hset := bind_set hrest
      obtain ⟨rfl, rfl⟩ := run_pure.mp hset
      exact .inr ⟨name, mutability, payload, body, hmake, _, _, rfl, rfl, rfl⟩

theorem alloc_begun {object : Option String} {value : Option Payload}
    {mutability : Option Mutability} {refs : List (Option String)} {script : List Operation}
    (hsound : world.Sound stakes) (hscript : ordinaryAll script = true)
    (hrun : (startAlloc thread object value mutability refs script : Attempt β Frame).run world =
      .ok (frame, next)) :
    Begun stakes next frame := by
  have hgathered : (gather thread refs world).1.Sound
      (.unitsOn ↑(gather thread refs world).2.1 + stakes) :=
    gather_sound hsound
  rcases alloc_run hrun with
    ⟨fault, rfl, rfl⟩ | ⟨name, mutability, payload, body, hmake, added, obj, hadd, rfl, rfl⟩
  · refine ⟨?_, ordinary_releases _⟩
    rw [Frame.stakes, stakes_releases]
    exact hgathered
  · obtain ⟨rfl, rfl⟩ := Prod.mk.inj hadd
    have hobject : Object.Squares
        { name, body, refs := (gather thread refs world).2.1, script } 1 := by
      unfold Object.Squares
      rw [Lawful.permanent_make hmake, Lawful.count_make hmake]
      cases mutability <;> simp
    exact begun_answer (hgathered.addObject hobject rfl hscript).addHolder _

end Resident

end Attempt

end SharedCell
