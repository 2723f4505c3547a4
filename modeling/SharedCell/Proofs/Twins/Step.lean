import Mathlib
import SharedCell.Proofs.Ownership.Persistence
import SharedCell.Proofs.Solo.Writes
import SharedCell.Proofs.Twins.Begin

/-!
# Steps in step

A thread with the same agenda makes the same step in two worlds that go in step, or none in either.
The only thing that the heaps could disagree about is the release of a unit that an object does not
count, and a sound world has no such unit.
-/

namespace SharedCell

open Operation Text

variable {β γ : Type} [Resident β] [Resident γ] {bond : Bond β γ} {left : World β}
  {right : World γ} {thread : ℕ}

/-! ## Stages -/

namespace Stage

theorem received_kind {action : Action} (htext : ∀ layout, action ≠ .showText layout)
    (kind other : CellKind) (result : Yield) :
    received other result action = received kind result action := by
  cases action with
  | showText layout => exact absurd rfl (htext layout)
  | _ => rfl

/-- A step depends on the kind of the cell and on the looks of objects only if a text is written. -/
theorem step_kind {kind other : CellKind} {guard : Guard} {action : Action}
    {facts : ObjectId → Facts} {shape looks : Layout → ObjectId → Shape} {slot : Slot}
    {full shown : Bool} (hsuits : action.suits full shown = true)
    (hkind : shown = true → other = kind) (hshape : full = true → looks = shape) (stage : Stage) :
    stage.step other guard action facts looks slot = stage.step kind guard action facts shape slot := by
  by_cases htext : ∃ layout, action = .showText layout
  · obtain ⟨layout, rfl⟩ := htext
    rw [Action.suits, Bool.and_eq_true] at hsuits
    rw [hkind hsuits.2, hshape hsuits.1]
  · have hother : ∀ layout, action ≠ .showText layout := fun layout heq => htext ⟨layout, heq⟩
    cases stage with
    | calling phase =>
      cases phase with
      | done result => simp only [step, received_kind hother kind other result]
      | _ => rfl
    | writing unit version =>
      cases action with
      | showText layout => exact absurd rfl (hother layout)
      | _ => rfl
    | _ => rfl

end Stage

/-! ## Releases -/

namespace World

/-- A release that is in order has found a unit. -/
theorem countable_of_books [Lawful β] {world : World β} {unit : ObjectId}
    {total : Multiset ObjectId}
    (hbooks : Books (world.letGo thread unit).1.objects (world.letGo thread unit).1.log total) :
    world.Countable unit := by
  intro object hobject
  have hlogged : (thread, .released unit (world.count unit)) ∈ (world.letGo thread unit).1.log := by
    rw [letGo, Books.log_release]
    exact List.mem_append_right _ List.mem_cons_self
  obtain ⟨later, hlater, hfound⟩ := hbooks.found thread unit _ (.inr hlogged)
  have htends : world.Tends (fun _ => False) (world.letGo thread unit).1 := .letGo world thread unit
  obtain ⟨kept, hkept, hpersists⟩ := htends.persists unit object hobject
  obtain rfl := Option.some.inj (hlater.symm.trans hkept)
  rwa [hpersists.permanent, count, hobject] at hfound

end World

namespace Bond.Pairs

/-- The script of an object that is destroyed suits. -/
theorem suited_letGo (hpairs : bond.Pairs left right) (thread : ℕ) (unit : ObjectId) :
    ∀ frame ∈ (left.letGo thread unit).2, bond.Suited frame := by
  intro frame hframe
  unfold World.letGo at hframe
  simp only at hframe
  split at hframe
  · rename_i object _ hobject
    obtain rfl := List.mem_singleton.mp hframe
    split
    · exact hpairs.suited unit object hobject
    · rfl
  · exact absurd hframe List.not_mem_nil

variable [Lawful β]

/-- A release that is in order is one in both worlds. -/
theorem released {total : Multiset ObjectId} (hpairs : bond.Pairs left right)
    (unit : Option ObjectId)
    (hbooks : Books (left.letGo? thread unit).1.objects (left.letGo? thread unit).1.log total) :
    bond.Pairs (left.letGo? thread unit).1 (right.letGo? thread unit).1 ∧
      (right.letGo? thread unit).2 = (left.letGo? thread unit).2 ∧
        ∀ frame ∈ (left.letGo? thread unit).2, bond.Suited frame := by
  cases unit with
  | none => exact ⟨hpairs, rfl, fun _ hframe => absurd hframe List.not_mem_nil⟩
  | some unit =>
    obtain ⟨hnext, hsame⟩ := hpairs.letGo thread (World.countable_of_books hbooks)
    exact ⟨hnext, hsame, hpairs.suited_letGo thread unit⟩

end Bond.Pairs

/-! ## Chores and calls -/

section Lawful

variable [Lawful β]

variable (thread) in
/-- A chore does the same in both worlds. -/
theorem Chore.perform_pairs {total : Multiset ObjectId} {chore : Chore}
    (hpairs : bond.Pairs left right) (hordinary : chore.ordinary = true)
    (hbooks : Books (chore.perform thread left).1.objects (chore.perform thread left).1.log total) :
    bond.Pairs (chore.perform thread left).1 (chore.perform thread right).1 ∧
      (chore.perform thread right).2 = (chore.perform thread left).2 ∧
        ∀ frame ∈ (chore.perform thread left).2, bond.Suited frame := by
  cases chore with
  | release unit => exact hpairs.released (some unit) hbooks
  | store name unit =>
    obtain ⟨hstored, hold⟩ := hpairs.store name unit
    simp only [Chore.perform] at hbooks ⊢
    rw [hold]
    exact hstored.released _ hbooks
  | endUse holder =>
    obtain ⟨hended, hunit⟩ := hpairs.endUse holder
    simp only [Chore.perform] at hbooks ⊢
    rw [hunit]
    exact hended.released _ hbooks
  | leaveCell cell =>
    exact ⟨hpairs.modifyCell fun _ _ _ => bond.leave thread, rfl,
      fun _ hframe => absurd hframe List.not_mem_nil⟩
  | join => cases hordinary
  | resume => cases hordinary

namespace Call

/-- What an access does besides is the same in both worlds. -/
theorem affect_pairs {total : Multiset ObjectId} {guard : Guard} {effect : Option Effect}
    (hpairs : bond.Pairs left right)
    (hbooks : Books (affect left thread guard effect).1.objects
      (affect left thread guard effect).1.log total) :
    bond.Pairs (affect left thread guard effect).1 (affect right thread guard effect).1 ∧
      (affect right thread guard effect).2 = (affect left thread guard effect).2 ∧
        ∀ frame ∈ (affect left thread guard effect).2, bond.Suited frame := by
  have hnone : ∀ frame ∈ ([] : List Frame), bond.Suited frame :=
    fun _ hframe => absurd hframe List.not_mem_nil
  cases effect with
  | none => exact ⟨hpairs, rfl, hnone⟩
  | some effect =>
    cases effect with
    | acquire obj => exact ⟨hpairs.acquire thread obj, rfl, hnone⟩
    | release obj => exact hpairs.released (some obj) hbooks
    | ask obj => exact ⟨hpairs.ask thread guard obj, rfl, hnone⟩
    | reject obj => exact ⟨hpairs.trace thread _, rfl, hnone⟩
    | retry | wait => exact ⟨hpairs.trace thread _, rfl, hnone⟩

omit [Lawful β] in
/-- A call that has its outcome is settled alike. -/
theorem settle_pairs {call : Call} (hpairs : bond.Pairs left right)
    (hsuited : bond.Suited (.call call)) (outcome : Outcome) :
    bond.Pairs (call.settle left outcome).1 (call.settle right outcome).1 ∧
      (call.settle right outcome).2 = (call.settle left outcome).2 := by
  rw [Bond.Suited, Frame.suits, Bool.and_eq_true] at hsuited
  obtain ⟨haction, hcopy⟩ := hsuited
  unfold settle
  split
  · rename_i content name haction hcopied
    rw [hcopied] at hcopy
    have hopen := apart_some.mp hcopy
    have hguard : (right.cell? call.cell).map (·.guard) = (left.cell? call.cell).map (·.guard) := by
      rcases hpairs.cell_cases call.cell with
        ⟨hleft, hright⟩ | ⟨cell, other, hleft, hright, hcell⟩
      · rw [hleft, hright]
      · rw [hleft, hright]
        exact congrArg some (bond.guard hcell)
    simp only [hpairs.cell?_eq hopen, hguard]
    split
    · exact ⟨hpairs.addCell ((bond.same hopen).mpr rfl), rfl⟩
    · split
      · exact ⟨(hpairs.eraseCell hopen).addCell ((bond.same hopen).mpr rfl), rfl⟩
      · exact ⟨hpairs, rfl⟩
  · rename_i hfreeze
    rw [hfreeze] at haction
    have hopen := apart_some.mp haction
    have hfrozen : bond.Pairs (left.modifyCell call.cell ({ · with kind := .atomic }))
        (right.modifyCell call.cell ({ · with kind := .atomic })) := by
      refine hpairs.modifyCell fun cell other _ hcell => ?_
      rw [(bond.same hopen).mp hcell]
      exact (bond.same hopen).mpr rfl
    exact ⟨hfrozen, rfl⟩
  · exact ⟨hpairs, rfl⟩

omit [Lawful β] in
/-- The step of a call that has no outcome yet. -/
theorem step_unfinished {call : Call} (hunfinished : ∀ outcome, call.stage ≠ .finished outcome)
    (world : World β) (thread : ℕ) :
    call.step world thread = (world.cell? call.cell).bind fun cell =>
      (call.stage.step cell.kind cell.guard call.action world.facts world.shape cell.slot).map
        fun (slot, stage, effect) =>
          ((affect (world.modifyCell call.cell ({ · with slot })) thread cell.guard effect).1,
            (affect (world.modifyCell call.cell ({ · with slot })) thread cell.guard effect).2 ++
              [.call { call with stage }]) := by
  unfold step
  split
  · rename_i outcome hfinished
    exact absurd hfinished (hunfinished outcome)
  · simp only [Option.bind_eq_bind, Option.map_eq_bind]
    congr 1

variable (thread) in
/-- A call makes the same step in both worlds. -/
theorem step_pairs {stakes : Stakes} {call : Call} (hpairs : bond.Pairs left right)
    (hsound : left.Sound (.making call + stakes)) (hsuited : bond.Suited (.call call)) :
    (call.step left thread = none ∧ call.step right thread = none) ∨
      ∃ next twin frames, call.step left thread = some (next, frames) ∧
        call.step right thread = some (twin, frames) ∧ bond.Pairs next twin ∧
          ∀ frame ∈ frames, bond.Suited frame := by
  by_cases hfinished : ∃ outcome, call.stage = .finished outcome
  · obtain ⟨outcome, hstage⟩ := hfinished
    obtain ⟨hsettled, hsame⟩ := settle_pairs hpairs hsuited outcome
    refine .inr ⟨(call.conclude left outcome).1, (call.conclude right outcome).1,
      [(call.conclude left outcome).2], ?_, ?_, hsettled, List.forall_mem_singleton.mpr rfl⟩
    · simp [step, hstage]
    · simp [step, hstage, conclude, hsame]
  · have hunfinished : ∀ outcome, call.stage ≠ .finished outcome :=
      fun outcome hstage => hfinished ⟨outcome, hstage⟩
    rw [step_unfinished hunfinished, step_unfinished hunfinished]
    rcases hpairs.cell_cases call.cell with
      ⟨hleft, hright⟩ | ⟨cell, other, hleft, hright, hcell⟩
    · rw [hleft, hright]
      exact .inl ⟨rfl, rfl⟩
    · have haction := hsuited
      rw [Bond.Suited, Frame.suits, Bool.and_eq_true] at haction
      have hsame : call.stage.step other.kind cell.guard call.action left.facts right.shape cell.slot =
          call.stage.step cell.kind cell.guard call.action left.facts left.shape cell.slot :=
        Stage.step_kind haction.1
          (fun hshown => by rw [(bond.same (apart_some.mp hshown)).mp hcell]) hpairs.shape call.stage
      rw [hleft, hright, Option.bind_some, Option.bind_some, bond.guard hcell, bond.slot hcell,
        hpairs.facts, hsame]
      cases hstage : call.stage.step cell.kind cell.guard call.action left.facts left.shape
          cell.slot with
      | none => exact .inl ⟨rfl, rfl⟩
      | some result =>
        obtain ⟨slot, stage, effect⟩ := result
        have hwritten : bond.Pairs (left.modifyCell call.cell ({ · with slot }))
            (right.modifyCell call.cell ({ · with slot })) :=
          hpairs.modifyCell fun _ _ _ => bond.write slot
        have hbooks := (affect_stepped thread hsound (mem_of_lookup hleft) hstage).1.books
        obtain ⟨hnext, hframes, hopened⟩ := affect_pairs hwritten hbooks
        refine .inr ⟨_, _, _, rfl, ?_, hnext, ?_⟩
        · simp only [Option.map_some, hframes]
        · exact List.forall_mem_append.mpr ⟨hopened, List.forall_mem_singleton.mpr hsuited⟩

end Call

/-! ## Threads -/

namespace Frame

omit [Lawful β] in
/-- A reply is received alike. -/
theorem receive_pairs {frame : Frame} (hpairs : bond.Pairs left right) (hsuited : bond.Suited frame)
    (reply : Reply) :
    bond.Pairs (receive left reply frame).1 (receive right reply frame).1 ∧
      (receive right reply frame).2 = (receive left reply frame).2 ∧
        bond.Suited (receive left reply frame).2 := by
  cases frame with
  | script owner ops => exact ⟨hpairs.tell owner reply, rfl, hsuited⟩
  | race contest => cases hsuited
  | stress tally => cases hsuited
  | _ => exact ⟨hpairs, rfl, hsuited⟩

variable (thread) in
omit [Lawful β] in
/-- Exclusive access to a payload is granted in both worlds or in neither. -/
theorem mutate_pairs (holder : ℕ) (obj : ObjectId) (payload : Payload) (stateSeen : Bool)
    (below : List Frame) (hpairs : bond.Pairs left right) (hfull : bond.full = true) :
    ∃ next twin frame,
      step thread left (.mutate holder obj payload stateSeen :: below) =
        some (next, frame :: below) ∧
      step thread right (.mutate holder obj payload stateSeen :: below) =
        some (twin, frame :: below) ∧
      bond.Pairs next twin ∧ bond.Suited frame := by
  have hchanged : bond.Pairs
      (left.modifyObject obj fun object =>
        { object with body := Resident.setPayload object.body payload })
      (right.modifyObject obj fun object =>
        { object with body := Resident.setPayload object.body payload }) :=
    hpairs.modifyObject obj (fun _ => rfl) fun _ _ _ halike =>
      { halike with body := bond.setPayload payload hfull halike.body }
  have hended (flag : Bool) : bond.Suited (.tidy [.endUse holder] (.flag flag)) := rfl
  have hseen : bond.Suited (.mutate holder obj payload true) := hfull
  rcases hpairs.objects obj with ⟨hleft, hright⟩ | ⟨object, other, hleft, hright, halike⟩
  · refine ⟨left, right, _, ?_, ?_, hpairs, hended false⟩
    · simp only [step, hleft]
      rfl
    · simp only [step, hright]
      rfl
  · simp only [step, hleft, hright, bond.count halike.body, bond.isMutable hfull halike.body]
    generalize (if stateSeen = true then Resident.count object.body == 1
      else Resident.isMutable object.body) = granted
    cases granted with
    | false => exact ⟨left, right, _, rfl, rfl, hpairs, hended false⟩
    | true =>
      cases stateSeen with
      | false => exact ⟨left, right, _, rfl, rfl, hpairs, hseen⟩
      | true => exact ⟨_, _, _, rfl, rfl, hchanged, hended true⟩

variable (thread) in
/-- A thread makes the same step in both worlds. -/
theorem step_pairs {stakes : Stakes} {agenda : List Frame} (hpairs : bond.Pairs left right)
    (hsound : left.Sound (stakesOf agenda + stakes))
    (hordinary : ∀ frame ∈ agenda, frame.ordinary = true)
    (hsuited : ∀ frame ∈ agenda, bond.Suited frame)
    (hcurrent : bond.full = true ∨ ∀ op, op? agenda = some op → op.Current left) :
    (step thread left agenda = none ∧ step thread right agenda = none) ∨
      ∃ next twin later, step thread left agenda = some (next, later) ∧
        step thread right agenda = some (twin, later) ∧ bond.Pairs next twin ∧
          ∀ frame ∈ later, bond.Suited frame := by
  cases agenda with
  | nil => exact .inl ⟨rfl, rfl⟩
  | cons top below =>
    have htop := hsuited top List.mem_cons_self
    have hbelow : ∀ frame ∈ below, bond.Suited frame :=
      fun frame hframe => hsuited frame (List.mem_cons_of_mem top hframe)
    -- What a step puts on top of the frames below.
    have hbooks := fun next later (hstep : step thread left (top :: below) = some (next, later)) =>
      (step_stepped hsound hordinary hstep).1.books
    cases top with
    | call active =>
      rw [stakesOf_cons, add_assoc] at hsound
      rcases Call.step_pairs thread hpairs hsound htop with
        ⟨hleft, hright⟩ | ⟨next, twin, frames, hleft, hright, hnext, hframes⟩
      · exact .inl ⟨by rw [step, hleft]; rfl, by rw [step, hright]; rfl⟩
      · refine .inr ⟨next, twin, frames ++ below, ?_, ?_, hnext,
          List.forall_mem_append.mpr ⟨hframes, hbelow⟩⟩
        · rw [step, hleft]
          rfl
        · rw [step, hright]
          rfl
    | mutate holder obj payload stateSeen =>
      obtain ⟨next, twin, frame, hleft, hright, hnext, hframe⟩ :=
        mutate_pairs thread holder obj payload stateSeen below hpairs htop
      exact .inr ⟨next, twin, _, hleft, hright, hnext, List.forall_mem_cons.mpr ⟨hframe, hbelow⟩⟩
    | tidy chores reply =>
      cases chores with
      | nil =>
        cases below with
        | nil => exact .inl ⟨rfl, rfl⟩
        | cons frame below =>
          obtain ⟨hnext, hsame, hreceived⟩ :=
            receive_pairs hpairs (hbelow frame List.mem_cons_self) reply
          refine .inr ⟨_, _, (receive left reply frame).2 :: below, rfl, ?_, hnext,
            List.forall_mem_cons.mpr ⟨hreceived, ?_⟩⟩
          · rw [← hsame]
            rfl
          · exact fun other hother => hbelow other (List.mem_cons_of_mem frame hother)
      | cons chore chores =>
        have hchore := hordinary _ List.mem_cons_self
        rw [ordinary, List.all_cons, Bool.and_eq_true] at hchore
        obtain ⟨hnext, hsame, hopened⟩ :=
          Chore.perform_pairs thread hpairs hchore.1 (hbooks _ _ rfl)
        refine .inr ⟨_, _, (chore.perform thread left).2 ++ .tidy chores reply :: below, rfl, ?_,
          hnext, List.forall_mem_append.mpr ⟨hopened, List.forall_mem_cons.mpr ⟨rfl, hbelow⟩⟩⟩
        rw [← hsame]
        rfl
    | script owner ops =>
      cases ops with
      | nil =>
        exact .inr ⟨left, right, _, rfl, rfl, hpairs, List.forall_mem_cons.mpr ⟨rfl, hbelow⟩⟩
      | cons op ops =>
        rw [Bond.Suited, suits, suitsAll_cons] at htop
        obtain ⟨hnext, hsame, hframe⟩ :=
          start_pairs thread hpairs htop.1 (hcurrent.imp_right fun hall => hall op rfl)
        refine .inr ⟨_, _, (op.start thread left).2 :: .script owner ops :: below, rfl, ?_, hnext,
          List.forall_mem_cons.mpr ⟨hframe, List.forall_mem_cons.mpr ⟨htop.2, hbelow⟩⟩⟩
        rw [← hsame]
        rfl
    | surrender owner =>
      rcases hpairs.takeRef owner with
        ⟨hleft, hright⟩ | ⟨after, other, ref, hleft, hright, hafter⟩
      · refine .inr ⟨left, right, below, ?_, ?_, hpairs, hbelow⟩
        · simp only [step, hleft]
        · simp only [step, hright]
      · have hstep : step thread left (.surrender owner :: below) =
            some ((after.letGo thread ref).1,
              (after.letGo thread ref).2 ++ .surrender owner :: below) := by
          simp only [step, hleft]
        obtain ⟨hnext, hsame, hopened⟩ :=
          hafter.released (some ref) (hbooks _ _ hstep)
        have hframes : (other.letGo thread ref).2 = (after.letGo thread ref).2 := hsame
        refine .inr ⟨_, _, _, hstep, ?_, hnext,
          List.forall_mem_append.mpr ⟨hopened, List.forall_mem_cons.mpr ⟨rfl, hbelow⟩⟩⟩
        rw [← hframes]
        simp only [step, hright]
        rfl
    | rounds remaining body ops replies =>
      rw [Bond.Suited, suits, Bool.and_eq_true] at htop
      cases ops with
      | nil =>
        cases remaining with
        | zero =>
          exact .inr ⟨left, right, _, rfl, rfl, hpairs, List.forall_mem_cons.mpr ⟨rfl, hbelow⟩⟩
        | succ remaining =>
          refine .inr ⟨left, right, _, rfl, rfl, hpairs,
            List.forall_mem_cons.mpr ⟨?_, hbelow⟩⟩
          rw [Bond.Suited, suits, htop.1, Bool.and_self]
      | cons op ops =>
        rw [suitsAll_cons] at htop
        obtain ⟨hnext, hsame, hframe⟩ := start_pairs thread hpairs htop.2.1
          (hcurrent.imp_right fun hall => hall op rfl)
        refine .inr ⟨_, _, (op.start thread left).2 :: .rounds remaining body ops replies :: below,
          ?_, ?_, hnext, List.forall_mem_cons.mpr ⟨hframe, List.forall_mem_cons.mpr ⟨?_, hbelow⟩⟩⟩
        · simp only [step]
        · rw [← hsame]
          simp only [step]
        · rw [Bond.Suited, suits, htop.1, htop.2.2, Bool.and_self]
    | race contest => cases htop
    | stress tally => cases htop

end Frame

end Lawful

end SharedCell
