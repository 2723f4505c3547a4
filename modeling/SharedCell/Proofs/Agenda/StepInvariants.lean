import Mathlib
import SharedCell.Proofs.Agenda.Changes
import SharedCell.Report.Event
import SharedCell.Session

/-!
# What steps leave behind

Whatever operations do, and wherever they fail, the books can be closed afterwards.  A handle without
a name is in use, so that it is given up when its last use ends.  Objects own units on older objects
only, so that ownership has no circles.  The counts of all objects balance what is in the log.  And a
destroyed object that still owns units is on the agenda of the thread that destroyed it.
-/

namespace SharedCell

variable {β : Type} [Resident β]

open World in
/-- What is kept by every change, every release and every report is kept by a step. -/
theorem Frame.step_keeps {property : World β → Prop} {world next : World β} {thread : ℕ}
    {stakes : Stakes} {agenda later : List Frame}
    (hchange : ∀ world next, Change thread world next → property world → property next)
    (hrelease : ∀ world obj, property world → property (world.release thread obj))
    (hreported : ∀ world event, event.isReport = true → property world →
      property (world.record thread event))
    (hsound : world.Sound stakes) (hordinary : ∀ frame ∈ agenda, frame.ordinary = true)
    (hstep : step thread world agenda = some (next, later)) (hworld : property world) :
    property next := by
  have hchanges : ∀ between, Changes thread world between → property between := by
    intro between hchanges
    induction hchanges with
    | refl => exact hworld
    | tail _ hlast ih => exact hchange _ _ hlast ih
  rcases step_turns hsound hordinary hstep with
    ⟨opened, rest, -, between, unit, hbetween, hresult⟩ |
    ⟨event, call, below, phase, between, -, -, hreports, hbetween, rfl⟩
  · obtain ⟨rfl, -⟩ := Prod.mk.inj hresult
    cases unit with
    | none => exact hchanges between hbetween
    | some unit => exact hrelease between unit (hchanges between hbetween)
  · unfold World.trace
    split
    · exact hreported between event hreports.isReport (hchanges between hbetween)
    · exact hchanges between hbetween

namespace Event

/-- What an event adds to the counts of all objects taken together. -/
def gain : Event → ℤ
  | .acquired .. => 1
  | .released .. => -1
  | _ => 0

end Event

/-- What all events of a log add to the counts. -/
def gained (log : List (ℕ × Event)) : ℤ :=
  (log.map (·.2.gain)).sum

theorem gained_cons (entry : ℕ × Event) (log : List (ℕ × Event)) :
    gained (entry :: log) = entry.2.gain + gained log :=
  List.sum_cons

theorem gained_eq (log : List (ℕ × Event)) :
    gained log = (log.countP (·.2.isAcquired) : ℤ) - (log.countP (·.2.isReleased) : ℤ) := by
  induction log with
  | nil => rfl
  | cons entry log ih =>
    rw [gained_cons, ih, List.countP_cons, List.countP_cons]
    cases entry.2 <;> simp [Event.gain, Event.isAcquired, Event.isReleased] <;> ring

namespace World

variable {world next : World β} {thread : ℕ} {obj : ObjectId}

/-! ## Handles and references -/

/-- Handles without a name are in use, and objects own units on older objects only. -/
structure Regular (world : World β) : Prop where
  named : ∀ holder ∈ world.holders, holder.name = none → holder.users ≠ 0
  grounded : ∀ (obj : ObjectId) (object : Object β), world.objects[obj]? = some object →
    ∀ ref ∈ object.refs, ref < obj

namespace Regular

omit [Resident β]

theorem empty : ({} : World β).Regular where
  named _ hholder := absurd hholder List.not_mem_nil
  grounded obj object hobject := by simp at hobject

theorem congr (hregular : world.Regular) (hobjects : next.objects = world.objects)
    (hholders : next.holders = world.holders) : next.Regular where
  named := hholders ▸ hregular.named
  grounded := hobjects ▸ hregular.grounded

theorem modifyObject (hregular : world.Regular) (obj : ObjectId) (change : Object β → Object β)
    (hrefs : ∀ object, world.object? obj = some object → (change object).refs ⊆ object.refs) :
    (world.modifyObject obj change).Regular where
  named := hregular.named
  grounded other object hobject ref href := by
    rw [Books.getElem?_modifyObject] at hobject
    split at hobject
    · rename_i hother
      subst hother
      obtain ⟨earlier, hearlier, rfl⟩ := Option.map_eq_some_iff.mp hobject
      exact hregular.grounded _ earlier hearlier ref (hrefs earlier hearlier href)
    · exact hregular.grounded other object hobject ref href

theorem modifyHolder {change : Holder → Holder} {id : ℕ} (hregular : world.Regular)
    (hchange : ∀ holder ∈ world.holders, holder.id = id → (change holder).name = none →
      (change holder).users ≠ 0) : (world.modifyHolder id change).Regular where
  named holder hholder hname := by
    obtain ⟨earlier, hearlier, rfl⟩ := List.mem_map.mp hholder
    by_cases hid : earlier.id = id
    · rw [if_pos hid] at hname ⊢
      exact hchange earlier hearlier hid hname
    · rw [if_neg hid] at hname ⊢
      exact hregular.named earlier hearlier hname
  grounded := hregular.grounded

theorem addHolder (hregular : world.Regular) (name : String) (unit : ObjectId) :
    (world.addHolder name unit).Regular where
  named holder hholder hname := by
    rcases List.mem_cons.mp hholder with rfl | hholder
    · cases hname
    · exact hregular.named holder hholder hname
  grounded := hregular.grounded

theorem eraseHolder (hregular : world.Regular) (id : ℕ) : (world.eraseHolder id).Regular where
  named holder hholder := hregular.named holder (List.mem_filter.mp hholder).1
  grounded := hregular.grounded

/-- A handle that is overwritten loses its name only while it is in use. -/
theorem store (hregular : world.Regular) (hids : (world.holders.map Holder.id).Nodup)
    (name : String) (unit : ObjectId) : (world.store name unit).1.Regular := by
  unfold World.store
  split
  · exact hregular.addHolder name unit
  · rename_i old hfound
    have hold : old ∈ world.holders := List.mem_of_find?_eq_some hfound
    split
    · exact (hregular.eraseHolder old.id).addHolder name unit
    · rename_i hused
      refine (hregular.modifyHolder fun holder hholder hid _ => ?_).addHolder name unit
      rw [List.inj_on_of_nodup_map hids hholder hold hid]
      exact hused

/-- A handle without a name is given up when its last use ends. -/
theorem endUse (hregular : world.Regular) (hids : (world.holders.map Holder.id).Nodup) (id : ℕ) :
    (world.endUse id).1.Regular := by
  unfold World.endUse
  split
  · exact hregular
  · rename_i found hfound
    have hmem : found ∈ world.holders := List.mem_of_find?_eq_some hfound
    have hid : found.id = id := by simpa using List.find?_some hfound
    split
    · exact hregular.eraseHolder id
    · rename_i hkept
      refine hregular.modifyHolder fun holder hholder hsame hname => ?_
      obtain rfl := List.inj_on_of_nodup_map hids hholder hmem (hsame.trans hid.symm)
      have hmore : 1 < holder.users := by simpa [show holder.name = none from hname] using hkept
      exact Nat.sub_ne_zero_of_lt hmore

end Regular

theorem Change.regular (hchange : Change thread world next) (hregular : world.Regular) :
    next.Regular := by
  cases hchange with
  | acquire obj =>
    exact (hregular.modifyObject obj Object.acquired fun _ _ => List.Subset.refl _).congr rfl rfl
  | freeze obj => exact hregular.modifyObject obj _ fun _ _ => List.Subset.refl _
  | setPayload obj payload => exact hregular.modifyObject obj _ fun _ _ => List.Subset.refl _
  | giveUp htake =>
    obtain ⟨object, refs, hobject, hrefs, rfl⟩ := takeRef_eq_some htake
    refine hregular.modifyObject _ _ fun earlier hearlier => ?_
    obtain rfl := Option.some.inj (hobject.symm.trans hearlier)
    rw [hrefs]
    exact List.subset_cons_self _ refs
  | @allocate object _ _ hmake hlive hrefs =>
    constructor
    case named => exact hregular.named
    case grounded =>
      intro other later hlater ref href
      rw [World.addObject, Array.getElem?_push] at hlater
      split at hlater
      · rename_i hnew
        obtain rfl := Option.some.inj hlater
        exact hnew ▸ hrefs ref href
      · exact hregular.grounded other later hlater ref href
  | record | tables => exact hregular.congr rfl rfl
  | addHolder name unit => exact hregular.addHolder name unit
  | eraseHolder id => exact hregular.eraseHolder id
  | useHolder id => exact hregular.modifyHolder fun holder _ _ _ => Nat.succ_ne_zero holder.users
  | monopolize id => exact hregular.modifyHolder fun _ _ _ _ => one_ne_zero
  | store hids name unit => exact hregular.store hids name unit
  | endUse hids id => exact hregular.endUse hids id

theorem Regular.release (hregular : world.Regular) (thread : ℕ) (obj : ObjectId) :
    (world.release thread obj).Regular := by
  rw [release_eq]
  refine Regular.congr (hregular.modifyObject obj (fun object =>
    { object with
      body := (Counted.release object.body).1
      destroyed := object.destroyed || world.isLast obj }) ?_) rfl rfl
  exact fun _ _ => List.Subset.refl _

/-! ## Counts -/

/-- The counts of all objects taken together. -/
def total (world : World β) : ℤ :=
  (world.objects.toList.map fun object => Resident.count object.body).sum

/-- The counts of all objects taken together are what was allocated and acquired less what was
released, unless a count was touched that was zero. -/
def Tallied (world : World β) : Prop :=
  (∀ entry ∈ world.log, entry.2.isViolation = false) →
    world.total = world.objects.size + gained world.log

theorem tallied_empty : ({} : World β).Tallied :=
  fun _ => rfl

theorem Tallied.congr (htallied : world.Tallied) (hobjects : next.objects = world.objects)
    (hlog : next.log = world.log) : next.Tallied := by
  unfold Tallied total
  rw [hobjects, hlog]
  exact htallied

theorem Tallied.remark (htallied : world.Tallied) {event : Event} (hgain : event.gain = 0) :
    (world.record thread event).Tallied := by
  intro hall
  rw [record, gained_cons, hgain, zero_add]
  exact htallied fun entry hentry => hall entry (List.mem_cons_of_mem _ hentry)

omit [Resident β] in
/-- What is added up for all objects changes with the object that is changed. -/
theorem sum_modifyObject {M : Type*} [AddCommMonoid M] {object : Object β}
    (hobject : world.object? obj = some object) (change : Object β → Object β)
    (measure : Object β → M) :
    ((world.modifyObject obj change).objects.toList.map measure).sum + measure object =
      (world.objects.toList.map measure).sum + measure (change object) := by
  rw [object?, ← Array.getElem?_toList] at hobject
  obtain ⟨before, after, hplace, -, hset, -⟩ := exists_place hobject
  have hmodified : (world.modifyObject obj change).objects.toList =
      before ++ change object :: after := by
    rw [modifyObject, Array.toList_modify, List.modify_eq_set_getElem?, hobject]
    exact hset _
  simp only [hmodified, hplace, List.map_append, List.map_cons, List.sum_append, List.sum_cons]
  abel

omit [Resident β] in
/-- The weight of a world bounds what is added up for all objects if it does so for each of them. -/
theorem sum_le_weight {measure : Object β → ℕ} (hmeasure : ∀ object, measure object ≤
      Operation.callWeight * (1 + object.refs.length) + Operation.weightAll object.script)
    (world : World β) : (world.objects.toList.map measure).sum ≤ world.weight := by
  have hsum : ∀ (objects : List (Object β)) (total : ℕ),
      total + (objects.map measure).sum ≤ objects.foldl
        (fun total object => total + Operation.callWeight * (1 + object.refs.length) +
          Operation.weightAll object.script) total := by
    intro objects
    induction objects with
    | nil => exact fun total => le_rfl
    | cons object objects ih =>
      intro total
      refine le_trans ?_ (ih _)
      rw [List.map_cons, List.sum_cons, ← add_assoc]
      have hobject := Nat.add_le_add_left (hmeasure object) total
      exact Nat.add_le_add_right (hobject.trans_eq (Nat.add_assoc _ _ _).symm) _
  have hzero := hsum world.objects.toList 0
  rwa [zero_add, Array.foldl_toList] at hzero

theorem total_modifyObject {object : Object β} (hobject : world.object? obj = some object)
    (change : Object β → Object β) :
    (world.modifyObject obj change).total =
      world.total + (Resident.count (change object).body - Resident.count object.body) := by
  have hsum := sum_modifyObject hobject change fun object => Resident.count object.body
  rw [total, total]
  linarith only [hsum]

omit [Resident β] in
theorem modifyObject_none (hnone : world.object? obj = none) (change : Object β → Object β) :
    world.modifyObject obj change = world := by
  have hsame : world.objects.modify obj change = world.objects := by
    apply Array.ext_getElem?
    intro other
    refine (Books.getElem?_modifyObject world obj other change).trans ?_
    split
    · rename_i hother
      rw [← hother, show world.objects[obj]? = none from hnone, Option.map_none]
    · rfl
  rw [modifyObject, hsame]

theorem Tallied.modifyObject {change : Object β → Object β} (htallied : world.Tallied)
    (hcount : ∀ object, Resident.count (change object).body = Resident.count object.body) :
    (world.modifyObject obj change).Tallied := by
  cases hobject : world.object? obj with
  | none => exact (modifyObject_none hobject change).symm ▸ htallied
  | some object =>
    intro hall
    rw [total_modifyObject hobject, hcount, sub_self, add_zero, htallied hall, World.modifyObject,
      Array.size_modify]

/-- A count that was not zero when it was touched belongs to an object. -/
theorem exists_of_found {event : Event}
    (hevent : event = .acquired obj (world.count obj) ∨ event = .released obj (world.count obj))
    (hfound : event.isViolation = false) :
    ∃ object, world.object? obj = some object ∧ 1 ≤ Resident.count object.body := by
  have hpos : 1 ≤ world.count obj := by
    rcases hevent with rfl | rfl <;> exact Int.not_le.mp (of_decide_eq_false hfound)
  cases hobject : world.object? obj with
  | none => norm_num [count, hobject] at hpos
  | some object =>
    rw [count, hobject] at hpos
    exact ⟨object, rfl, hpos⟩

variable [Lawful β]

/-- On a heap that counts all its objects, units are gained and lost one by one. -/
theorem Change.tallied (hcounted : ∀ body : β, Counted.isPermanent body = false)
    (hchange : Change thread world next) (htallied : world.Tallied) : next.Tallied := by
  cases hchange with
  | acquire obj =>
    intro hall
    obtain ⟨hfound, hearlier⟩ := List.forall_mem_cons.mp hall
    obtain ⟨object, hobject, -⟩ := exists_of_found (.inl rfl) hfound
    calc (world.acquire thread obj).total
        = world.total + (Resident.count (Counted.acquire object.body) -
            Resident.count object.body) := total_modifyObject hobject _
      _ = world.total + 1 := by rw [Lawful.count_acquire _ (hcounted _), add_sub_cancel_left]
      _ = world.objects.size + (1 + gained world.log) := by rw [htallied hearlier]; ring
      _ = (world.acquire thread obj).objects.size + gained (world.acquire thread obj).log := by
        simp [World.acquire, World.record, World.modifyObject, gained_cons, Event.gain]
  | freeze obj => exact htallied.modifyObject fun object => Lawful.count_freeze object.body
  | setPayload obj payload =>
    exact htallied.modifyObject fun object => Lawful.count_setPayload object.body payload
  | giveUp htake =>
    obtain ⟨object, refs, hobject, hrefs, rfl⟩ := takeRef_eq_some htake
    exact htallied.modifyObject fun _ => rfl
  | @allocate object mutability payload hmake hlive hrefs =>
    intro hall
    have hone : Resident.count object.body = 1 := by
      have hpermanent := Lawful.permanent_make hmake
      rw [hcounted, eq_comm, decide_eq_false_iff_not] at hpermanent
      rw [Lawful.count_make hmake, if_neg hpermanent]
    have htotal : (world.addObject object).1.total = world.total + 1 := by
      simp [total, World.addObject, hone]
    rw [htotal, htallied hall, World.addObject, Array.size_push]
    push_cast
    ring
  | @record event hjudges =>
    apply htallied.remark
    cases event <;> first | rfl | exact hjudges.elim
  | store hids name unit =>
    obtain ⟨holders, nextHolder, hstored⟩ := world.exists_stored name unit
    rw [hstored]
    exact htallied.congr rfl rfl
  | endUse hids id =>
    obtain ⟨holders, hended⟩ := world.exists_endUsed id
    rw [hended]
    exact htallied.congr rfl rfl
  | addHolder | eraseHolder | useHolder | monopolize | tables => exact htallied.congr rfl rfl

theorem Tallied.release (hcounted : ∀ body : β, Counted.isPermanent body = false)
    (htallied : world.Tallied) (thread : ℕ) (obj : ObjectId) :
    (world.release thread obj).Tallied := by
  intro hall
  have hlog := Books.log_release world thread obj
  rw [hlog] at hall
  obtain ⟨hfound, hearlier⟩ := List.forall_mem_cons.mp (List.forall_mem_append.mp hall).2
  obtain ⟨object, hobject, hpos⟩ := exists_of_found (.inr rfl) hfound
  calc (world.release thread obj).total
      = world.total + (Resident.count (Counted.release object.body).1 -
          Resident.count object.body) := by
        rw [release_eq]
        exact total_modifyObject hobject _
    _ = world.total - 1 := by rw [Lawful.count_release _ (hcounted _) hpos]; ring
    _ = world.objects.size + (-1 + gained world.log) := by rw [htallied hearlier]; ring
    _ = (world.release thread obj).objects.size + gained (world.release thread obj).log := by
      rw [hlog, release_eq, World.modifyObject, Array.size_modify]
      split <;> simp [gained_cons, Event.gain]

/-! ## Destroyed objects -/

end World

namespace Frame

/-- The frame sees to it that a destroyed object gives up its units. -/
def Settles (obj : ObjectId) : Frame → Prop
  | .script owner _ | .surrender owner => owner = obj
  | _ => False

end Frame

namespace World

variable {world next : World β} {thread : ℕ} {obj : ObjectId}

/-- A destroyed object has not given up all its units. -/
def Owes (world : World β) (obj : ObjectId) : Prop :=
  ∃ object, world.object? obj = some object ∧ object.destroyed = true ∧ object.refs ≠ []

omit [Resident β] in
theorem Owes.congr (howes : next.Owes obj) (hobjects : next.objects = world.objects) :
    world.Owes obj := by
  unfold Owes object? at howes ⊢
  rwa [hobjects] at howes

omit [Resident β] in
theorem owes_modifyObject {change : Object β → Object β} {other : ObjectId}
    (howes : (world.modifyObject obj change).Owes other)
    (hdestroyed : ∀ object, (change object).destroyed = object.destroyed)
    (hrefs : ∀ object, world.object? obj = some object → (change object).refs ⊆ object.refs) :
    world.Owes other := by
  obtain ⟨object, hobject, hgone, hleft⟩ := howes
  rw [object?, Books.getElem?_modifyObject] at hobject
  split at hobject
  · rename_i hother
    subst hother
    obtain ⟨earlier, hearlier, rfl⟩ := Option.map_eq_some_iff.mp hobject
    refine ⟨earlier, hearlier, (hdestroyed earlier).symm.trans hgone, fun hnone => hleft ?_⟩
    exact List.subset_nil.mp (hnone ▸ hrefs earlier hearlier)
  · exact ⟨object, hobject, hgone, hleft⟩

/-- Objects are destroyed by releases only. -/
theorem Change.owes (hchange : Change thread world next) (howes : next.Owes obj) :
    world.Owes obj := by
  cases hchange with
  | acquire target =>
    have hmodified : (world.modifyObject target Object.acquired).Owes obj := howes.congr rfl
    exact owes_modifyObject hmodified (fun _ => rfl) fun _ _ => List.Subset.refl _
  | freeze | setPayload =>
    exact owes_modifyObject howes (fun _ => rfl) fun _ _ => List.Subset.refl _
  | giveUp htake =>
    obtain ⟨object, refs, hobject, hrefs, rfl⟩ := takeRef_eq_some htake
    refine owes_modifyObject howes (fun _ => rfl) fun earlier hearlier => ?_
    obtain rfl := Option.some.inj (hobject.symm.trans hearlier)
    rw [hrefs]
    exact List.subset_cons_self _ refs
  | allocate hmake hlive hrefs =>
    obtain ⟨object, hobject, hgone, hleft⟩ := howes
    rw [object?, World.addObject, Array.getElem?_push] at hobject
    split at hobject
    · obtain rfl := Option.some.inj hobject
      cases hlive.symm.trans hgone
    · exact ⟨object, hobject, hgone, hleft⟩
  | store hids name unit =>
    obtain ⟨holders, nextHolder, hstored⟩ := world.exists_stored name unit
    exact howes.congr (by rw [hstored])
  | endUse hids id =>
    obtain ⟨holders, hended⟩ := world.exists_endUsed id
    exact howes.congr (by rw [hended])
  | record | addHolder | eraseHolder | useHolder | monopolize | tables => exact howes.congr rfl

theorem Changes.owes (hchanges : Changes thread world next) (howes : next.Owes obj) :
    world.Owes obj := by
  induction hchanges with
  | refl => exact howes
  | tail _ hlast ih => exact ih (hlast.owes howes)

/-- What a release destroys goes on top of the agenda. -/
theorem letGo_owes {unit : ObjectId} (howes : (world.letGo thread unit).1.Owes obj) :
    world.Owes obj ∨ ∃ frame ∈ (world.letGo thread unit).2, frame.Settles obj := by
  obtain ⟨object, hobject, hgone, hleft⟩ := howes
  rw [letGo, release_eq, object?, Books.getElem?_modifyObject] at hobject
  split at hobject
  · rename_i hunit
    subst hunit
    obtain ⟨earlier, hearlier, rfl⟩ := Option.map_eq_some_iff.mp hobject
    rcases Bool.or_eq_true_iff.mp hgone with hbefore | hlast
    · exact .inl ⟨earlier, hearlier, hbefore, hleft⟩
    · right
      rw [letGo, hlast, show world.object? unit = some earlier from hearlier]
      refine ⟨_, List.mem_singleton_self _, ?_⟩
      split <;> rfl
  · exact .inl ⟨object, hobject, hgone, hleft⟩

end World

omit [Resident β] in
theorem World.not_owes_of_takeRef {world : World β} {obj : ObjectId}
    (htake : world.takeRef obj = none) : ¬ world.Owes obj := by
  rintro ⟨object, hobject, -, hleft⟩
  obtain ⟨ref, refs, hrefs⟩ := List.exists_cons_of_ne_nil hleft
  simp [takeRef, hobject, hrefs] at htake

theorem Frame.settles_below {obj : ObjectId} {top : Frame} {below : List Frame}
    (htop : ¬ top.Settles obj) (hsettles : ∃ frame ∈ top :: below, frame.Settles obj) :
    ∃ frame ∈ below, frame.Settles obj :=
  ((List.exists_mem_cons_iff ..).mp hsettles).resolve_left htop

/-- A frame that sees to a destroyed object stays on the agenda until the object has given up all
its units. -/
theorem Frame.step_settles {world next : World β} {thread : ℕ} {obj : ObjectId}
    {agenda later : List Frame} (hstep : step thread world agenda = some (next, later))
    (hsettles : ∃ frame ∈ agenda, frame.Settles obj) :
    (∃ frame ∈ later, frame.Settles obj) ∨ (next = world ∧ ¬ world.Owes obj) := by
  have hkept (front : List Frame) {below : List Frame} (hbelow : ∃ frame ∈ below, frame.Settles obj) :
      ∃ frame ∈ front ++ below, frame.Settles obj := by
    obtain ⟨frame, hframe, hobj⟩ := hbelow
    exact ⟨frame, List.mem_append_right front hframe, hobj⟩
  cases move_of_step hstep with
  | @call _ _ frames below _ => exact .inl (hkept frames (settles_below id hsettles))
  | reply told frame below =>
    have hbelow := settles_below id hsettles
    rw [List.exists_mem_cons_iff] at hbelow ⊢
    refine .inl (hbelow.imp_left fun hframe => ?_)
    cases frame <;> exact hframe
  | chore chore chores told below =>
    exact .inl (List.append_cons _ _ below ▸ hkept _ (settles_below id hsettles))
  | told owner below =>
    rw [List.exists_mem_cons_iff] at hsettles
    exact .inl ((List.exists_mem_cons_iff ..).mpr hsettles)
  | tell owner op ops below =>
    rw [List.exists_mem_cons_iff] at hsettles
    exact .inl (hkept [_] ((List.exists_mem_cons_iff ..).mpr hsettles))
  | @surrendered owner below htake =>
    rcases (List.exists_mem_cons_iff ..).mp hsettles with howner | hbelow
    · obtain rfl : owner = obj := howner
      exact .inr ⟨rfl, World.not_owes_of_takeRef htake⟩
    · exact .inl hbelow
  | surrender below htake => exact .inl (hkept _ hsettles)
  | perform => exact .inl (hkept [_, _] (settles_below id hsettles))
  | stress tally below => exact .inl (hkept _ (settles_below id hsettles))
  | refuse | look | write | ended | again => exact .inl (hkept [_] (settles_below id hsettles))

/-- An object that a step destroys is on the agenda afterwards, or has given up all its units. -/
theorem Frame.step_owes {world next : World β} {thread : ℕ} {stakes : Stakes} {obj : ObjectId}
    {agenda later : List Frame} (hsound : world.Sound stakes)
    (hordinary : ∀ frame ∈ agenda, frame.ordinary = true)
    (hstep : step thread world agenda = some (next, later)) (howes : next.Owes obj) :
    world.Owes obj ∨ ∃ frame ∈ later, frame.Settles obj := by
  rcases step_turns hsound hordinary hstep with
    ⟨opened, rest, rfl, between, unit, hbetween, hresult⟩ |
    ⟨event, call, below, phase, between, -, -, -, hbetween, rfl⟩
  · cases unit with
    | none =>
      obtain ⟨rfl, -⟩ := Prod.mk.inj hresult
      exact .inl (hbetween.owes howes)
    | some unit =>
      have hnext : (between.letGo thread unit).1.Owes obj := by
        rw [show between.letGo thread unit = (next, opened) from hresult.symm]
        exact howes
      have hopened : (between.letGo thread unit).2 = opened := congrArg Prod.snd hresult.symm
      rcases World.letGo_owes hnext with hbefore | ⟨frame, hframe, hobj⟩
      · exact .inl (hbetween.owes hbefore)
      · exact .inr ⟨frame, List.mem_append_left rest (hopened ▸ hframe), hobj⟩
  · obtain ⟨log, htraced⟩ := between.exists_traced thread event
    exact .inl (hbetween.owes (howes.congr (by rw [htraced])))

end SharedCell
