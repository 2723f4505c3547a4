import Mathlib
import SharedCell.Proofs.Ownership.Books
import SharedCell.Proofs.Ownership.Cells
import SharedCell.Proofs.Ownership.Holders
import SharedCell.Proofs.Ownership.Ordinary
import SharedCell.Proofs.World

/-!
# Sound worlds

A world is sound with respect to what the frames of all threads have at stake in it if the books are
in order, handles and cells count their users, and cells are in order.  Everything that operations
do to a world is one of few changes, and each of them keeps the world sound.
-/

namespace SharedCell

variable {β : Type}

namespace World

/-- The units of handles, of raw units, of cells, and of objects. -/
def owned (world : World β) : Multiset ObjectId :=
  (world.holders.map Holder.unit : Multiset ObjectId) +
    (world.raws.map Prod.snd : Multiset ObjectId) +
    (world.cells : Multiset (String × Cell)).bind (fun entry => entry.2.slot.units) +
    (world.objects.toList : Multiset (Object β)).bind fun object => ↑object.refs

/-- What holds between the steps of threads that have all this at stake. -/
structure Sound [Resident β] (world : World β) (stakes : Stakes) : Prop where
  books : Books world.objects world.log (world.owned + stakes.inHand)
  held : Held world.holders world.nextHolder stakes
  raws : (world.raws.map Prod.fst).Nodup
  housed : Housed world.cells stakes world.facts
  scripts : ∀ (obj : ObjectId) (object : Object β), world.objects[obj]? = some object →
    Operation.ordinaryAll object.script = true

section Owned

variable {world : World β} {obj : ObjectId}

theorem owned_log (log : List (ℕ × Event)) : ({ world with log } : World β).owned = world.owned :=
  rfl

theorem owned_of_holder {holder : Holder} (hholder : holder ∈ world.holders) :
    holder.unit ∈ world.owned := by
  simp only [owned, Multiset.mem_add, Multiset.mem_coe]
  exact .inl (.inl (.inl (List.mem_map_of_mem hholder)))

theorem owned_of_content {name : String} {cell : Cell} (hcell : (name, cell) ∈ world.cells)
    (hcontent : cell.slot.content = some obj) : obj ∈ world.owned := by
  simp only [owned, Multiset.mem_add, Multiset.mem_bind, Multiset.mem_coe]
  exact .inl (.inr ⟨(name, cell), hcell, Slot.mem_units.mpr hcontent⟩)

end Owned

section Objects

variable {world : World β} {obj : ObjectId} {change : Object β → Object β}

/-- Objects that change keep what they own. -/
theorem owned_modifyObject (hrefs : ∀ object, (change object).refs = object.refs) :
    (world.modifyObject obj change).owned = world.owned := by
  have hsame : (world.modifyObject obj change).objects.toList.map
      (fun object => (object.refs : Multiset ObjectId)) =
        world.objects.toList.map fun object => (object.refs : Multiset ObjectId) := by
    apply List.ext_getElem?
    intro index
    rw [List.getElem?_map, List.getElem?_map, Array.getElem?_toList, Array.getElem?_toList,
      Books.getElem?_modifyObject]
    split <;> cases world.objects[index]? <;> simp [hrefs]
  unfold owned Multiset.bind
  rw [Multiset.map_coe, Multiset.map_coe, Multiset.map_coe, Multiset.map_coe, hsame]
  rfl

theorem scripts_modifyObject (hscript : ∀ object, (change object).script = object.script)
    (hscripts : ∀ (other : ObjectId) (object : Object β), world.objects[other]? = some object →
      Operation.ordinaryAll object.script = true) :
    ∀ (other : ObjectId) (object : Object β),
      (world.modifyObject obj change).objects[other]? = some object →
      Operation.ordinaryAll object.script = true := by
  intro other object hobject
  rw [Books.getElem?_modifyObject] at hobject
  split at hobject
  · obtain ⟨before, hbefore, rfl⟩ := Option.map_eq_some_iff.mp hobject
    rw [hscript]
    exact hscripts other before hbefore
  · exact hscripts other object hobject

variable [Resident β]

theorem facts_modifyObject
    (hfacts : ∀ object, Resident.facts (change object).body = Resident.facts object.body) :
    (world.modifyObject obj change).facts = world.facts := by
  funext other
  unfold facts object?
  rw [Books.getElem?_modifyObject]
  by_cases hobj : obj = other
  · rw [if_pos hobj]
    cases world.objects[other]? <;> simp [hfacts]
  · rw [if_neg hobj]

/-- Apart from the log, releasing a unit changes its object only. -/
theorem release_eq (world : World β) (thread : ℕ) (obj : ObjectId) :
    world.release thread obj =
      { world.modifyObject obj fun object =>
          { object with
            body := (Counted.release object.body).1
            destroyed := object.destroyed || world.isLast obj } with
        log := (world.release thread obj).log } := by
  by_cases hlast : world.isLast obj = true <;> simp [World.release, hlast, record]

end Objects

namespace Sound

variable [Resident β] {world : World β} {stakes : Stakes} {obj : ObjectId} {thread : ℕ}
  {name : String}

/-! ## Objects -/

/-- A world in which nothing has happened. -/
theorem empty : ({} : World β).Sound 0 where
  books := .empty
  held := by
    constructor <;> simp
  raws := List.nodup_nil
  housed := by
    constructor <;> simp
  scripts := by simp

/-- What is logged of guards and calls changes nothing. -/
theorem remark {event : Event} (hsound : world.Sound stakes)
    (hquiet : event.Quiet) :
    (world.trace thread event).Sound stakes := by
  unfold trace
  split
  · exact { hsound with books := hsound.books.remark hquiet }
  · exact hsound

theorem ask {guard : Guard} (hsound : world.Sound stakes) :
    (world.ask thread guard obj).Sound stakes := by
  unfold World.ask
  split
  · exact hsound.remark trivial
  · exact hsound

/-- What calls carry is owned. -/
theorem owned_of_carries {call : Call} (hsound : world.Sound stakes) (hcall : call ∈ stakes.calls)
    (hfits : call.stage.Fits call.action) (hcarries : call.stage.Carries obj) :
    obj ∈ world.owned + stakes.inHand := by
  rw [Multiset.mem_add]
  rcases hcarries with hunits | hpending
  · right
    rw [Stakes.inHand, Multiset.mem_add]
    exact .inr (Multiset.mem_bind.mpr ⟨call, hcall, hunits⟩)
  · obtain ⟨holder, hholder, -, rfl⟩ := hsound.held.backed call hcall obj (hfits.2 obj hpending)
    exact .inl (owned_of_holder hholder)

/-- A payload that was not changed. -/
theorem unchanging {holder : ℕ} (hsound : world.Sound (.changing holder obj + stakes)) :
    world.Sound (.useOf holder + stakes) where
  books := by simpa using hsound.books
  held := by
    refine hsound.held.mono (by simp) ?_ (by simpa using hsound.held.backed)
    intro mutation hmutation
    rw [Stakes.add_mutations, Multiset.mem_add]
    exact .inr (by simpa using hmutation)
  raws := hsound.raws
  housed := hsound.housed.congr (by simp) (by simp)
  scripts := hsound.scripts

/-- An object that counts a single unit is not permanent, and there is a single unit on it. -/
theorem single {object : Object β} (hsound : world.Sound stakes)
    (hobject : world.object? obj = some object) (hcount : Resident.count object.body = 1) :
    Counted.isPermanent object.body = false ∧ (world.owned + stakes.inHand).count obj = 1 := by
  have hsquares := hsound.books.squares obj object hobject
  have hcounted : Counted.isPermanent object.body = false := by
    by_contra hpermanent
    have hzero := (Object.squares_permanent (Bool.eq_true_of_not_eq_false hpermanent)).mp hsquares
    rw [hzero.1] at hcount
    cases hcount
  have hcensus := ((Object.squares_counted hcounted).mp hsquares).1
  rw [hcount] at hcensus
  exact ⟨hcounted, by exact_mod_cast hcensus.symm⟩

/-- What is to be stored through another handle has a unit more. -/
theorem not_stored {holder : ℕ} {object : Object β} {call : Call}
    (hsound : world.Sound (.changing holder obj + stakes))
    (hobject : world.object? obj = some object) (hcount : Resident.count object.body = 1)
    (hcall : call ∈ stakes.calls) : call.action.new? ≠ some obj := by
  intro hnew
  obtain ⟨own, hown, hid, hunit, -, husers⟩ :=
    hsound.held.exclusive holder obj (by simp)
  obtain ⟨other, hother, hused, hsame⟩ := hsound.held.backed call (by simpa using hcall) obj hnew
  have hne : other.id ≠ own.id := by
    intro heq
    have htwice := hsound.held.users own hown
    rw [husers, Stakes.used_add, (Stakes.changing_parts holder obj).2.1, Multiset.count_add,
      hid, Multiset.count_singleton_self] at htwice
    have hagain := Multiset.count_pos.mpr (stakes.mem_used_of_call hcall hused)
    rw [heq, hid] at hagain
    omega
  have htwo := Held.two_units hown hother hne (hsame.trans hunit.symm)
  have htotal := (hsound.single hobject hcount).2
  rw [Multiset.count_add, World.owned, Multiset.count_add, Multiset.count_add, Multiset.count_add,
    Multiset.coe_count] at htotal
  rw [hunit] at htwo
  omega

/-- The only unit on an object whose payload changes is that of the handle. -/
theorem sole_unit {holder : ℕ} {object : Object β}
    (hsound : world.Sound (.changing holder obj + stakes))
    (hobject : world.object? obj = some object) (hcount : Resident.count object.body = 1) :
    (∀ name cell, (name, cell) ∈ world.cells → cell.slot.content ≠ some obj) ∧
      ∀ call ∈ stakes.calls, call.stage.Fits call.action → ¬ call.stage.Carries obj := by
  have htotal := (hsound.single hobject hcount).2
  obtain ⟨own, hown, -, hunit, -⟩ := hsound.held.exclusive holder obj (by simp)
  rw [Stakes.inHand_add, (Stakes.changing_parts holder obj).1, zero_add, Multiset.count_add,
    World.owned, Multiset.count_add, Multiset.count_add, Multiset.count_add, Multiset.coe_count,
    Multiset.coe_count] at htotal
  have hone : 1 ≤ (world.holders.map Holder.unit).count obj :=
    List.count_pos_iff.mpr (hunit ▸ List.mem_map_of_mem hown)
  constructor
  · intro name cell hcell hcontent
    have hcells : 1 ≤ ((world.cells : Multiset (String × Cell)).bind
        fun entry => entry.2.slot.units).count obj := by
      refine Multiset.count_pos.mpr (Multiset.mem_bind.mpr ⟨(name, cell), hcell, ?_⟩)
      exact Slot.mem_units.mpr hcontent
    omega
  · rintro call hcall hfits (hunits | hpending)
    · have hhand : 1 ≤ stakes.inHand.count obj := by
        rw [Stakes.inHand, Multiset.count_add]
        refine le_trans ?_ (Nat.le_add_left _ _)
        exact Multiset.count_pos.mpr (Multiset.mem_bind.mpr ⟨call, hcall, hunits⟩)
      omega
    · exact hsound.not_stored hobject hcount hcall (hfits.2 obj hpending)

/-- A new object takes its references along and comes with its first unit. -/
theorem addObject {object : Object β} (hsound : world.Sound (.unitsOn ↑object.refs + stakes))
    (hsquares : object.Squares 1) (hlive : object.destroyed = false)
    (hscript : Operation.ordinaryAll object.script = true) :
    (world.addObject object).1.Sound (.unitsOn {world.objects.size} + stakes) := by
  have hkept : ∀ other, other ∈ world.owned + (Stakes.unitsOn ↑object.refs + stakes).inHand →
      (world.addObject object).1.facts other = world.facts other := by
    intro other hother
    unfold facts object? World.addObject
    rw [Array.getElem?_push, if_neg (hsound.books.known other hother).ne]
  constructor
  case books =>
    have howned : (world.addObject object).1.owned = world.owned + ↑object.refs := by
      unfold owned World.addObject
      rw [Array.toList_push, ← Multiset.coe_add, Multiset.add_bind, Multiset.coe_singleton,
        Multiset.singleton_bind, ← add_assoc]
    have hbooks := hsound.books
    rw [Stakes.inHand_add, (Stakes.unitsOn_parts _).1, ← add_assoc, ← howned] at hbooks
    rw [Stakes.inHand_add, (Stakes.unitsOn_parts _).1, add_left_comm, Multiset.singleton_add]
    exact hbooks.push hsquares hlive
  case held => exact hsound.held.congr (by simp) (by simp) (by simp)
  case raws => exact hsound.raws
  case housed =>
    have hhoused : Housed world.cells (.unitsOn ↑object.refs + stakes)
        (world.addObject object).1.facts := by
      refine { hsound.housed with sound := fun name cell hcell => ?_ }
      have hcellSound := hsound.housed.sound name cell hcell
      refine hcellSound.refacts ?_ ?_
      · intro _ other hcontent haccepts
        rwa [hkept other (Multiset.mem_add.mpr (.inl (owned_of_content hcell hcontent)))]
      · intro _ call hcall other hcarries haccepts
        have hmem := (Stakes.mem_callsOn.mp hcall).1
        rwa [hkept other (hsound.owned_of_carries hmem (hcellSound.fits call hcall) hcarries)]
    exact hhoused.congr (by simp) (by simp)
  case scripts =>
    intro other found hfound
    rw [World.addObject, Array.getElem?_push] at hfound
    split at hfound
    · exact Option.some.inj hfound ▸ hscript
    · exact hsound.scripts other found hfound

/-- An object gives up a reference. -/
theorem surrender {owner ref : ObjectId} {refs : List ObjectId} {object : Object β}
    (hsound : world.Sound stakes) (hobject : world.object? owner = some object)
    (hrefs : object.refs = ref :: refs) :
    (world.modifyObject owner ({ · with refs })).Sound (.unitsOn {ref} + stakes) where
  books := by
    have howned : world.owned = {ref} + (world.modifyObject owner ({ · with refs })).owned := by
      have hplace : world.objects.toList[owner]? = some object :=
        Array.getElem?_toList.trans hobject
      obtain ⟨hlt, -⟩ := List.getElem?_eq_some_iff.mp hplace
      obtain ⟨front, found, back, hlist, hlength, hmodify⟩ :=
        List.exists_of_modify (fun object : Object β => { object with refs }) hlt
      obtain rfl : found = object := by
        rw [hlist, ← hlength] at hplace
        simpa using hplace
      unfold owned World.modifyObject
      rw [Array.toList_modify, hmodify, hlist]
      simp only [← Multiset.coe_add, ← Multiset.cons_coe, Multiset.add_bind,
        ← Multiset.singleton_add, Multiset.singleton_bind, hrefs]
      abel
    have hbooks : Books (world.modifyObject owner ({ · with refs })).objects world.log
        (world.owned + stakes.inHand) :=
      hsound.books.change (fun _ => rfl) (fun _ => rfl) fun _ => rfl
    rw [howned] at hbooks
    rw [Stakes.inHand_add, (Stakes.unitsOn_parts _).1, add_left_comm, ← add_assoc]
    exact hbooks
  held := hsound.held.congr (by simp) (by simp) (by simp)
  raws := hsound.raws
  housed := by
    have hfacts : (world.modifyObject owner ({ · with refs })).facts = world.facts :=
      facts_modifyObject fun _ => rfl
    rw [hfacts]
    exact hsound.housed.congr (by simp) (by simp)
  scripts := scripts_modifyObject (fun _ => rfl) hsound.scripts

variable [Lawful β]

theorem acquire (thread : ℕ) (hsound : world.Sound stakes)
    (hunit : obj ∈ world.owned + stakes.inHand) :
    (world.acquire thread obj).Sound (.unitsOn {obj} + stakes) where
  books := by
    have howned : (world.acquire thread obj).owned = world.owned := by
      rw [World.acquire, record, owned_log]
      exact owned_modifyObject fun _ => rfl
    have hbooks := hsound.books.acquire hunit thread
    rw [howned, Stakes.inHand_add, (Stakes.unitsOn_parts {obj}).1, add_left_comm,
      Multiset.singleton_add]
    exact hbooks
  held := hsound.held.congr (by simp) (by simp) (by simp)
  raws := hsound.raws
  housed := by
    have hfacts : (world.acquire thread obj).facts = world.facts :=
      facts_modifyObject fun object => Lawful.facts_acquire object.body
    rw [hfacts]
    exact hsound.housed.congr (by simp) (by simp)
  scripts := scripts_modifyObject (fun _ => rfl) hsound.scripts

theorem release (hsound : world.Sound (.unitsOn {obj} + stakes)) :
    (world.release thread obj).Sound stakes := by
  have hrelease := release_eq world thread obj
  constructor
  case books =>
    have hbooks := hsound.books
    have howned : (world.release thread obj).owned = world.owned := by
      rw [hrelease, owned_log]
      exact owned_modifyObject fun _ => rfl
    rw [Stakes.inHand_add, (Stakes.unitsOn_parts {obj}).1, add_left_comm,
      Multiset.singleton_add] at hbooks
    rw [howned]
    exact hbooks.release thread
  case held =>
    rw [hrelease]
    exact hsound.held.congr (by simp) (by simp) (by simp)
  case raws =>
    rw [hrelease]
    exact hsound.raws
  case housed =>
    have hfacts : (world.release thread obj).facts = world.facts := by
      rw [hrelease]
      exact facts_modifyObject fun object => Lawful.facts_release object.body
    rw [hfacts, hrelease]
    exact hsound.housed.congr (by simp) (by simp)
  case scripts =>
    rw [hrelease]
    exact scripts_modifyObject (fun _ => rfl) hsound.scripts

/-- Freezing does not make unacceptable what a steadfast guard accepted. -/
theorem freeze (hsound : world.Sound stakes) :
    (world.modifyObject obj fun object =>
      { object with body := Resident.freeze object.body }).Sound stakes := by
  let change (object : Object β) : Object β :=
    { object with body := Resident.freeze object.body }
  have hkeeps : ∀ (guard : Guard) other, guard.Steadfast →
      guard.accepts (world.facts other) = true →
        guard.accepts ((world.modifyObject obj change).facts other) = true := by
    intro guard other hsteadfast haccepts
    unfold facts object? at haccepts ⊢
    rw [Books.getElem?_modifyObject]
    by_cases hobj : obj = other
    · rw [if_pos hobj]
      cases hobject : world.objects[other]? with
      | none => simpa [hobject] using haccepts
      | some object =>
        simp only [hobject, Option.map_some] at haccepts ⊢
        rw [Lawful.facts_freeze]
        split
        · exact haccepts
        · rename_i hcounted
          exact hsteadfast _ (Bool.eq_false_iff.mpr hcounted) haccepts
    · rwa [if_neg hobj]
  constructor
  case books =>
    have howned : (world.modifyObject obj change).owned = world.owned :=
      owned_modifyObject fun _ => rfl
    rw [howned]
    exact hsound.books.change (fun object => Lawful.count_freeze object.body)
      (fun object => Lawful.permanent_freeze object.body) fun _ => rfl
  case held => exact hsound.held
  case raws => exact hsound.raws
  case housed =>
    refine { hsound.housed with sound := fun name cell hcell => ?_ }
    exact (hsound.housed.sound name cell hcell).refacts
      (fun hsteadfast other _ => hkeeps cell.guard other hsteadfast)
      fun hsteadfast _ _ other _ => hkeeps cell.guard other hsteadfast
  case scripts => exact scripts_modifyObject (fun _ => rfl) hsound.scripts

/-- A payload changes while nothing else owns the object. -/
theorem setPayload {holder : ℕ} {object : Object β} {payload : Payload}
    (hsound : world.Sound (.changing holder obj + stakes))
    (hobject : world.object? obj = some object) (hcount : Resident.count object.body = 1) :
    (world.modifyObject obj fun object =>
      { object with body := Resident.setPayload object.body payload }).Sound
        (.changing holder obj + stakes) := by
  let change (object : Object β) : Object β :=
    { object with body := Resident.setPayload object.body payload }
  obtain ⟨hcontent, hcarried⟩ := hsound.sole_unit hobject hcount
  have hother : ∀ other, other ≠ obj →
      (world.modifyObject obj change).facts other = world.facts other := by
    intro other hne
    unfold facts object?
    rw [Books.getElem?_modifyObject, if_neg hne.symm]
  constructor
  case books =>
    have howned : (world.modifyObject obj change).owned = world.owned :=
      owned_modifyObject fun _ => rfl
    rw [howned]
    exact hsound.books.change (fun object => Lawful.count_setPayload object.body payload)
      (fun object => Lawful.permanent_setPayload object.body payload) fun _ => rfl
  case held => exact hsound.held
  case raws => exact hsound.raws
  case housed =>
    refine { hsound.housed with sound := fun name cell hcell => ?_ }
    have hcellSound := hsound.housed.sound name cell hcell
    refine hcellSound.refacts ?_ ?_
    · intro _ other hheld haccepts
      have hne : other ≠ obj := fun heq => hcontent name cell hcell (heq ▸ hheld)
      rwa [hother other hne]
    · intro _ call hcall other hcarries haccepts
      have hne : other ≠ obj := by
        rintro rfl
        have hmem := (Stakes.mem_callsOn.mp hcall).1
        exact hcarried call (by simpa using hmem) (hcellSound.fits call hcall) hcarries
      rwa [hother other hne]
  case scripts => exact scripts_modifyObject (fun _ => rfl) hsound.scripts

end Sound

end World

end SharedCell
