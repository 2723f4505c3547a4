import Mathlib
import SharedCell.Agenda.Step
import SharedCell.Proofs.Heap.Lawful
import SharedCell.Proofs.Ownership.Ordinary
import SharedCell.Proofs.Ownership.Books
import SharedCell.Proofs.Ownership.Sound
import SharedCell.Proofs.Solo.Registers

/-!
# Worlds that go in step

Two worlds go in step if every operation does the same to both of them.  What they must have in
common for that depends on what may tell them apart: their objects can be of different heaps as long
as nothing is asked that only one of the heaps offers, and they can differ in a cell as long as
nobody looks at it.  A bond says what they have in common, and carries the proofs that units can be
acquired and released, objects frozen and cells left without breaking it.
-/

namespace SharedCell

/-- The cell, if one is named, is not the hidden one. -/
def apart (hidden cell : Option String) : Bool :=
  hidden.all fun name => cell != some name

theorem apart_some {hidden : Option String} {name : String} :
    apart hidden (some name) = true ↔ hidden ≠ some name := by
  cases hidden with
  | none => simp [apart]
  | some hidden => simpa [apart] using ne_comm

/-! ## Operations -/

/-- What is asked of a cell is asked on all heaps, and makes no cell with the hidden name. -/
def Verb.suits (full : Bool) (hidden : Option String) : Verb → Bool
  | .debug _ => full
  | .cloneCell copy => apart hidden copy
  | _ => true

namespace Operation

mutual

/-- The operation does not touch the hidden cell and, unless the heaps are to offer the same in full,
needs nothing but what heaps have in common: it makes no permanent objects, and neither looks at
payloads nor writes texts.  The same goes for the scripts of the objects that it makes. -/
def suits (full : Bool) (hidden : Option String) : Operation → Bool
  | .alloc _ _ mutability _ script =>
      (full || mutability != some .permanent) && suitsAll full hidden script
  | .mutate .. | .compare .. | .hash _ | .debug .. | .display .. => full
  | .newCell cell .. | .dropCell cell | .intoInner cell _ | .freezeCell cell => apart hidden cell
  | .onCell cell verb .. => apart hidden cell && verb.suits full hidden
  | .rounds _ (some body) => suitsAll full hidden body
  | .race .. | .stress .. => false
  | _ => true

def suitsAll (full : Bool) (hidden : Option String) : List Operation → Bool
  | [] => true
  | op :: ops => suits full hidden op && suitsAll full hidden ops

end

variable {full : Bool} {hidden : Option String}

theorem suitsAll_cons {op : Operation} {ops : List Operation} :
    suitsAll full hidden (op :: ops) = true ↔
      op.suits full hidden = true ∧ suitsAll full hidden ops = true := by
  rw [suitsAll, Bool.and_eq_true]

mutual

theorem ordinary_of_suits : ∀ op : Operation, op.suits full hidden = true → op.ordinary = true
  | .alloc _ _ _ _ script, hsuits => by
    rw [suits, Bool.and_eq_true] at hsuits
    exact ordinaryAll_of_suitsAll script hsuits.2
  | .rounds _ (some body), hsuits => by
    rw [suits] at hsuits
    exact ordinaryAll_of_suitsAll body hsuits
  | .rounds _ none, _ => rfl
  | .race .., hsuits | .stress .., hsuits => by
    rw [suits] at hsuits
    cases hsuits
  | .malformed, _ | .clone .., _ | .drop _, _ | .freeze _, _ | .info _, _ | .mutate .., _
  | .sameObject .., _ | .compare .., _ | .hash _, _ | .identity _, _ | .debug .., _
  | .display .., _ | .intoRaw .., _ | .fromRaw .., _ | .check .., _ | .ensure .., _
  | .compareErrors .., _ | .newCell .., _ | .dropCell _, _ | .intoInner .., _
  | .freezeCell _, _ | .onCell .., _ => rfl

theorem ordinaryAll_of_suitsAll :
    ∀ ops : List Operation, suitsAll full hidden ops = true → ordinaryAll ops = true
  | [], _ => rfl
  | op :: ops, hsuits => by
    rw [suitsAll_cons] at hsuits
    exact (ordinaryAll_cons op ops).mpr
      ⟨ordinary_of_suits op hsuits.1, ordinaryAll_of_suitsAll ops hsuits.2⟩

end

end Operation

/-- What is asked of a hidden cell does not depend on its kind, and no text is written of objects
that are not the same. -/
def Action.suits (full shown : Bool) : Action → Bool
  | .get | .set _ | .compareAndSwap .. | .compareAndSet .. => true
  | .showText _ => full && shown
  | _ => shown

namespace Frame

/-- What is on the agenda suits as the operations do that put it there. -/
def suits (full : Bool) (hidden : Option String) : Frame → Bool
  | .call active =>
      active.action.suits full (apart hidden (some active.cell)) &&
        active.copy.all fun name => apart hidden (some name)
  | .mutate .. => full
  | .tidy .. | .surrender _ => true
  | .script _ ops => Operation.suitsAll full hidden ops
  | .rounds _ body ops _ =>
      Operation.suitsAll full hidden body && Operation.suitsAll full hidden ops
  | .race _ | .stress _ => false

end Frame

/-- A unit on the object can be released: it is counted, unless the object is permanent. -/
def World.Countable {β : Type} [Resident β] (world : World β) (obj : ObjectId) : Prop :=
  ∀ object, world.object? obj = some object →
    Counted.isPermanent object.body = true ∨ 1 ≤ Resident.count object.body

/-! ## Bonds -/

/-- What two worlds have in common.  If `full` is set their heaps cannot be told apart, and if
`logged` is set the same is in their logs. -/
structure Bond (β γ : Type) [Resident β] [Resident γ] where
  bodies : β → γ → Prop
  cells : String → Cell → Cell → Prop
  full : Bool
  hidden : Option String
  logged : Bool
  facts {body : β} {other : γ} : bodies body other → Resident.facts other = Resident.facts body
  count {body : β} {other : γ} : bodies body other → Resident.count other = Resident.count body
  acquire {body : β} {other : γ} : bodies body other →
    bodies (Counted.acquire body) (Counted.acquire other)
  release {body : β} {other : γ} : bodies body other →
    Counted.isPermanent body = true ∨ 1 ≤ Resident.count body →
      bodies (Counted.release body).1 (Counted.release other).1 ∧
        (Counted.release other).2 = (Counted.release body).2
  freeze {body : β} {other : γ} : bodies body other →
    bodies (Resident.freeze body) (Resident.freeze other)
  make (mutability : Mutability) (payload : Payload) : full = true ∨ mutability ≠ .permanent →
    ((Resident.make mutability payload : Option β) = none ∧
        (Resident.make mutability payload : Option γ) = none) ∨
      ∃ body other, Resident.make mutability payload = some body ∧
        Resident.make mutability payload = some other ∧ bodies body other
  setPayload {body : β} {other : γ} (payload : Payload) : full = true → bodies body other →
    bodies (Resident.setPayload body payload) (Resident.setPayload other payload)
  isMutable {body : β} {other : γ} : full = true → bodies body other →
    Resident.isMutable other = Resident.isMutable body
  shape {body : β} {other : γ} (layout : Text.Layout) : full = true → bodies body other →
    Resident.shape layout other = Resident.shape layout body
  offer : full = true → Resident.offer γ = Resident.offer β
  /-- Cells that are not hidden are the same. -/
  same {name : String} {cell other : Cell} : hidden ≠ some name →
    (cells name cell other ↔ other = cell)
  slot {name : String} {cell other : Cell} : cells name cell other → other.slot = cell.slot
  guard {name : String} {cell other : Cell} : cells name cell other → other.guard = cell.guard
  write {name : String} {cell other : Cell} (slot : Slot) : cells name cell other →
    cells name { cell with slot } { other with slot }
  leave {name : String} {cell other : Cell} (thread : ℕ) : cells name cell other →
    cells name (cell.leave thread) (other.leave thread)

namespace Bond

variable {β γ : Type} [Resident β] [Resident γ] {bond : Bond β γ}

/-- Two objects of which only the bodies can be different. -/
structure Alike (bond : Bond β γ) (object : Object β) (other : Object γ) : Prop where
  name : other.name = object.name
  body : bond.bodies object.body other.body
  refs : other.refs = object.refs
  script : other.script = object.script
  destroyed : other.destroyed = object.destroyed

/-- The bond between two worlds. -/
structure Pairs (bond : Bond β γ) (left : World β) (right : World γ) : Prop where
  objects (obj : ObjectId) : (left.object? obj = none ∧ right.object? obj = none) ∨
    ∃ object other, left.object? obj = some object ∧ right.object? obj = some other ∧
      bond.Alike object other
  suited (obj : ObjectId) (object : Object β) : left.object? obj = some object →
    Operation.suitsAll bond.full bond.hidden object.script = true
  holders : right.holders = left.holders
  nextHolder : right.nextHolder = left.nextHolder
  raws : right.raws = left.raws
  cells : List.Forall₂ (fun entry other => other.1 = entry.1 ∧ bond.cells entry.1 entry.2 other.2)
    left.cells right.cells
  /-- The hidden cell is there. -/
  present (name : String) : bond.hidden = some name → (left.cell? name).isSome = true
  log : bond.logged = true → right.log = left.log
  told : right.told = left.told
  scripts : right.scripts = left.scripts
  traced : right.traced = left.traced

namespace Pairs

variable {left : World β} {right : World γ} {obj : ObjectId} {name : String} {thread : ℕ}

/-! ## What can be seen -/

theorem facts (hpairs : bond.Pairs left right) : right.facts = left.facts := by
  funext obj
  rcases hpairs.objects obj with ⟨hleft, hright⟩ | ⟨object, other, hleft, hright, halike⟩
  · rw [World.facts, World.facts, hleft, hright]
  · rw [World.facts, World.facts, hleft, hright]
    exact bond.facts halike.body

theorem count (hpairs : bond.Pairs left right) (obj : ObjectId) :
    right.count obj = left.count obj := by
  rcases hpairs.objects obj with ⟨hleft, hright⟩ | ⟨object, other, hleft, hright, halike⟩
  · rw [World.count, World.count, hleft, hright]
  · rw [World.count, World.count, hleft, hright]
    exact bond.count halike.body

theorem shape (hpairs : bond.Pairs left right) (hfull : bond.full = true) :
    right.shape = left.shape := by
  funext layout obj
  rcases hpairs.objects obj with ⟨hleft, hright⟩ | ⟨object, other, hleft, hright, halike⟩
  · rw [World.shape, World.shape, hleft, hright]
  · rw [World.shape, World.shape, hleft, hright]
    exact bond.shape layout hfull halike.body

theorem names (hpairs : bond.Pairs left right) :
    right.objects.map Object.name = left.objects.map Object.name := by
  apply Array.ext_getElem?
  intro obj
  rw [Array.getElem?_map, Array.getElem?_map]
  rcases hpairs.objects obj with ⟨hleft, hright⟩ | ⟨object, other, hleft, hright, halike⟩
  · rw [show right.objects[obj]? = none from hright, show left.objects[obj]? = none from hleft]
    rfl
  · rw [show right.objects[obj]? = _ from hright, show left.objects[obj]? = _ from hleft]
    exact congrArg some halike.name

theorem size (hpairs : bond.Pairs left right) : right.objects.size = left.objects.size := by
  have hsize := congrArg Array.size hpairs.names
  rwa [Array.size_map, Array.size_map] at hsize

theorem findObject? (hpairs : bond.Pairs left right) (name : String) :
    right.findObject? name = left.findObject? name := by
  have hfind := congrArg (Array.findIdx? (· == name)) hpairs.names
  rwa [Array.findIdx?_map, Array.findIdx?_map] at hfind

theorem holder? (hpairs : bond.Pairs left right) (name : String) :
    right.holder? name = left.holder? name := by
  rw [World.holder?, World.holder?, hpairs.holders]

theorem raw? (hpairs : bond.Pairs left right) (name : String) :
    right.raw? name = left.raw? name := by
  rw [World.raw?, World.raw?, hpairs.raws]

theorem cell_cases (hpairs : bond.Pairs left right) (name : String) :
    (left.cell? name = none ∧ right.cell? name = none) ∨
      ∃ cell other, left.cell? name = some cell ∧ right.cell? name = some other ∧
        bond.cells name cell other := by
  have hcells := hpairs.cells
  unfold World.cell?
  generalize left.cells = cells at hcells ⊢
  generalize right.cells = others at hcells ⊢
  induction hcells with
  | nil => exact .inl ⟨rfl, rfl⟩
  | @cons entry other _ _ hentry _ ih =>
    obtain ⟨first, cell⟩ := entry
    obtain ⟨second, twin⟩ := other
    obtain ⟨hsame, hcell⟩ := hentry
    dsimp only at hsame hcell
    subst hsame
    rw [List.lookup_cons, List.lookup_cons]
    by_cases hname : name = second
    · subst hname
      simp only [BEq.rfl]
      exact .inr ⟨cell, twin, rfl, rfl, hcell⟩
    · simp only [beq_eq_false_iff_ne.mpr hname]
      exact ih

theorem cells_eq (hpairs : bond.Pairs left right)
    (hsame : ∀ name cell other, bond.cells name cell other → other = cell) :
    right.cells = left.cells := by
  have hcells := hpairs.cells
  generalize left.cells = cells at hcells ⊢
  generalize right.cells = others at hcells ⊢
  induction hcells with
  | nil => rfl
  | @cons entry other _ _ hentry _ ih =>
    obtain ⟨name, cell⟩ := entry
    obtain ⟨second, twin⟩ := other
    obtain ⟨rfl, hcell⟩ := hentry
    obtain rfl := hsame _ _ _ hcell
    rw [ih]

theorem cellNames (hpairs : bond.Pairs left right) :
    right.cells.map Prod.fst = left.cells.map Prod.fst := by
  have hcells := hpairs.cells
  generalize left.cells = cells at hcells ⊢
  generalize right.cells = others at hcells ⊢
  induction hcells with
  | nil => rfl
  | cons hentry _ ih => rw [List.map_cons, List.map_cons, hentry.1, ih]

/-- Cells that are not hidden are the same. -/
theorem cell?_eq (hpairs : bond.Pairs left right) (hname : bond.hidden ≠ some name) :
    right.cell? name = left.cell? name := by
  rcases hpairs.cell_cases name with ⟨hleft, hright⟩ | ⟨cell, other, hleft, hright, hcell⟩
  · rw [hleft, hright]
  · rw [hleft, hright, (bond.same hname).mp hcell]

theorem cell?_isNone (hpairs : bond.Pairs left right) (name : String) :
    (right.cell? name).isNone = (left.cell? name).isNone := by
  rcases hpairs.cell_cases name with ⟨hleft, hright⟩ | ⟨cell, other, hleft, hright, -⟩
  · rw [hleft, hright]
  · rw [hleft, hright]
    rfl

/-! ## What can be done -/

theorem record (hpairs : bond.Pairs left right) (thread : ℕ) (event : Event) :
    bond.Pairs (left.record thread event) (right.record thread event) :=
  { hpairs with log := fun hlogged => congrArg _ (hpairs.log hlogged) }

theorem trace (hpairs : bond.Pairs left right) (thread : ℕ) (event : Event) :
    bond.Pairs (left.trace thread event) (right.trace thread event) := by
  unfold World.trace
  rw [hpairs.traced]
  split
  · exact hpairs.record thread event
  · exact hpairs

theorem ask (hpairs : bond.Pairs left right) (thread : ℕ) (guard : Guard) (obj : ObjectId) :
    bond.Pairs (left.ask thread guard obj) (right.ask thread guard obj) := by
  unfold World.ask
  split
  · exact hpairs.trace thread _
  · exact hpairs

theorem modifyObject {change : Object β → Object β} {alter : Object γ → Object γ}
    (hpairs : bond.Pairs left right) (obj : ObjectId)
    (hscript : ∀ object, (change object).script = object.script)
    (hchange : ∀ object other, left.object? obj = some object → bond.Alike object other →
      bond.Alike (change object) (alter other)) :
    bond.Pairs (left.modifyObject obj change) (right.modifyObject obj alter) :=
  { hpairs with
    objects := fun target => by
      rw [World.object?, World.object?, Books.getElem?_modifyObject, Books.getElem?_modifyObject]
      rcases hpairs.objects target with ⟨hleft, hright⟩ | ⟨object, other, hleft, hright, halike⟩
      · rw [show left.objects[target]? = none from hleft,
          show right.objects[target]? = none from hright]
        exact .inl (by split <;> exact ⟨rfl, rfl⟩)
      · rw [show left.objects[target]? = _ from hleft, show right.objects[target]? = _ from hright]
        split
        · rename_i htarget
          subst htarget
          exact .inr ⟨_, _, rfl, rfl, hchange object other hleft halike⟩
        · exact .inr ⟨object, other, rfl, rfl, halike⟩
    suited := fun target object hobject => by
      rw [World.object?, Books.getElem?_modifyObject] at hobject
      split at hobject
      · obtain ⟨earlier, hearlier, rfl⟩ := Option.map_eq_some_iff.mp hobject
        rw [hscript]
        exact hpairs.suited target earlier hearlier
      · exact hpairs.suited target object hobject }

theorem acquire (hpairs : bond.Pairs left right) (thread : ℕ) (obj : ObjectId) :
    bond.Pairs (left.acquire thread obj) (right.acquire thread obj) := by
  unfold World.acquire
  rw [hpairs.count]
  apply record
  exact hpairs.modifyObject obj (fun _ => rfl) fun _ _ _ halike =>
    { halike with body := bond.acquire halike.body }

theorem freeze (hpairs : bond.Pairs left right) (obj : ObjectId) :
    bond.Pairs
      (left.modifyObject obj fun object => { object with body := Resident.freeze object.body })
      (right.modifyObject obj fun object => { object with body := Resident.freeze object.body }) :=
  hpairs.modifyObject obj (fun _ => rfl) fun _ _ _ halike =>
    { halike with body := bond.freeze halike.body }

theorem isLast (hpairs : bond.Pairs left right) (hcountable : left.Countable obj) :
    right.isLast obj = left.isLast obj := by
  rcases hpairs.objects obj with ⟨hleft, hright⟩ | ⟨object, other, hleft, hright, halike⟩
  · rw [World.isLast, World.isLast, hleft, hright]
  · rw [World.isLast, World.isLast, hleft, hright]
    exact (bond.release halike.body (hcountable object hleft)).2

theorem release (hpairs : bond.Pairs left right) (thread : ℕ) (hcountable : left.Countable obj) :
    bond.Pairs (left.release thread obj) (right.release thread obj) := by
  unfold World.release
  rw [hpairs.isLast hcountable, hpairs.count]
  have hmodified : bond.Pairs
      (left.modifyObject obj fun object =>
        { object with
          body := (Counted.release object.body).1
          destroyed := object.destroyed || left.isLast obj })
      (right.modifyObject obj fun object =>
        { object with
          body := (Counted.release object.body).1
          destroyed := object.destroyed || left.isLast obj }) := by
    refine hpairs.modifyObject obj (fun _ => rfl) fun object other hobject halike => ?_
    exact { halike with
      body := (bond.release halike.body (hcountable object hobject)).1
      destroyed := congrArg (· || left.isLast obj) halike.destroyed }
  simp only
  split
  · exact (hmodified.record thread _).record thread _
  · exact hmodified.record thread _

theorem letGo (hpairs : bond.Pairs left right) (thread : ℕ) (hcountable : left.Countable obj) :
    bond.Pairs (left.letGo thread obj).1 (right.letGo thread obj).1 ∧
      (right.letGo thread obj).2 = (left.letGo thread obj).2 := by
  refine ⟨hpairs.release thread hcountable, ?_⟩
  unfold World.letGo
  rw [hpairs.isLast hcountable, hpairs.scripts]
  rcases hpairs.objects obj with ⟨hleft, hright⟩ | ⟨object, other, hleft, hright, halike⟩
  · rw [hleft, hright]
    cases left.isLast obj <;> rfl
  · rw [hleft, hright]
    cases left.isLast obj with
    | false => rfl
    | true => simp only [halike.script]

theorem addObject {object : Object β} {other : Object γ} (hpairs : bond.Pairs left right)
    (halike : bond.Alike object other)
    (hsuits : Operation.suitsAll bond.full bond.hidden object.script = true) :
    bond.Pairs (left.addObject object).1 (right.addObject other).1 :=
  { hpairs with
    objects := fun obj => by
      rw [World.object?, World.object?, World.addObject, World.addObject, Array.getElem?_push,
        Array.getElem?_push, hpairs.size]
      split
      · exact .inr ⟨object, other, rfl, rfl, halike⟩
      · exact hpairs.objects obj
    suited := fun obj found hfound => by
      rw [World.object?, World.addObject, Array.getElem?_push] at hfound
      split at hfound
      · obtain rfl := Option.some.inj hfound
        exact hsuits
      · exact hpairs.suited obj found hfound }

/-- The next reference of a destroyed object is given up. -/
theorem takeRef (hpairs : bond.Pairs left right) (owner : ObjectId) :
    (left.takeRef owner = none ∧ right.takeRef owner = none) ∨
      ∃ next other ref, left.takeRef owner = some (next, ref) ∧
        right.takeRef owner = some (other, ref) ∧ bond.Pairs next other := by
  unfold World.takeRef
  rcases hpairs.objects owner with ⟨hleft, hright⟩ | ⟨object, other, hleft, hright, halike⟩
  · rw [hleft, hright]
    exact .inl ⟨rfl, rfl⟩
  · rw [hleft, hright, Option.map_some, Option.map_some, halike.refs]
    cases object.refs with
    | nil => exact .inl ⟨rfl, rfl⟩
    | cons ref refs =>
      refine .inr ⟨_, _, ref, rfl, rfl, ?_⟩
      exact hpairs.modifyObject owner (fun _ => rfl) fun _ _ _ halike => { halike with refs := rfl }

/-! ### Handles and raw units -/

theorem modifyHolder (hpairs : bond.Pairs left right) (id : ℕ) (change : Holder → Holder) :
    bond.Pairs (left.modifyHolder id change) (right.modifyHolder id change) :=
  { hpairs with holders := congrArg (List.map _) hpairs.holders }

theorem eraseHolder (hpairs : bond.Pairs left right) (id : ℕ) :
    bond.Pairs (left.eraseHolder id) (right.eraseHolder id) :=
  { hpairs with holders := congrArg (List.filter _) hpairs.holders }

theorem addHolder (hpairs : bond.Pairs left right) (name : String) (unit : ObjectId) :
    bond.Pairs (left.addHolder name unit) (right.addHolder name unit) :=
  { hpairs with
    holders := by
      rw [World.addHolder, World.addHolder, hpairs.nextHolder, hpairs.holders]
    nextHolder := congrArg (· + 1) hpairs.nextHolder }

theorem useAll (hpairs : bond.Pairs left right) (ids : List ℕ) :
    bond.Pairs
      (ids.foldl (fun world id => world.modifyHolder id fun holder =>
        { holder with users := holder.users + 1 }) left)
      (ids.foldl (fun world id => world.modifyHolder id fun holder =>
        { holder with users := holder.users + 1 }) right) := by
  induction ids generalizing left right with
  | nil => exact hpairs
  | cons id ids ih => exact ih (hpairs.modifyHolder id _)

theorem store (hpairs : bond.Pairs left right) (name : String) (unit : ObjectId) :
    bond.Pairs (left.store name unit).1 (right.store name unit).1 ∧
      (right.store name unit).2 = (left.store name unit).2 := by
  unfold World.store
  rw [hpairs.holder?]
  split
  · exact ⟨hpairs.addHolder name unit, rfl⟩
  · split
    · exact ⟨(hpairs.eraseHolder _).addHolder name unit, rfl⟩
    · exact ⟨(hpairs.modifyHolder _ _).addHolder name unit, rfl⟩

theorem endUse (hpairs : bond.Pairs left right) (id : ℕ) :
    bond.Pairs (left.endUse id).1 (right.endUse id).1 ∧
      (right.endUse id).2 = (left.endUse id).2 := by
  unfold World.endUse
  rw [hpairs.holders]
  split
  · exact ⟨hpairs, rfl⟩
  · split
    · exact ⟨hpairs.eraseHolder id, rfl⟩
    · exact ⟨hpairs.modifyHolder id _, rfl⟩

theorem addRaw (hpairs : bond.Pairs left right) (name : String) (unit : ObjectId) :
    bond.Pairs (left.addRaw name unit) (right.addRaw name unit) :=
  { hpairs with raws := congrArg _ hpairs.raws }

theorem eraseRaw (hpairs : bond.Pairs left right) (name : String) :
    bond.Pairs (left.eraseRaw name) (right.eraseRaw name) :=
  { hpairs with raws := congrArg (List.filter _) hpairs.raws }

theorem tell (hpairs : bond.Pairs left right) (owner : ObjectId) (reply : Reply) :
    bond.Pairs { left with told := (owner, reply) :: left.told }
      { right with told := (owner, reply) :: right.told } :=
  { hpairs with told := congrArg _ hpairs.told }

/-! ### Cells -/

theorem addCell {cell other : Cell} (hpairs : bond.Pairs left right)
    (hcell : bond.cells name cell other) :
    bond.Pairs (left.addCell name cell) (right.addCell name other) :=
  { hpairs with
    cells := .cons ⟨rfl, hcell⟩ hpairs.cells
    present := fun other hother => by
      rw [World.cell?, World.addCell, List.lookup_cons]
      split
      · rfl
      · exact hpairs.present other hother }

/-- Only a cell that is not hidden is given up. -/
theorem eraseCell (hpairs : bond.Pairs left right) (hname : bond.hidden ≠ some name) :
    bond.Pairs (left.eraseCell name) (right.eraseCell name) :=
  { hpairs with
    cells := List.rel_filter (fun _ _ hentry => by dsimp only; rw [hentry.1]) hpairs.cells
    present := fun other hother => by
      have hne : other ≠ name := fun heq => hname (heq ▸ hother)
      rw [World.cell?_eraseCell_of_ne hne]
      exact hpairs.present other hother }

theorem modifyCell {change alter : Cell → Cell} (hpairs : bond.Pairs left right)
    (hchange : ∀ cell other, (name, cell) ∈ left.cells → bond.cells name cell other →
      bond.cells name (change cell) (alter other)) :
    bond.Pairs (left.modifyCell name change) (right.modifyCell name alter) :=
  { hpairs with
    cells := by
      have hcells := (List.forall₂_and_left _ _).mpr ⟨fun _ hmem => hmem, hpairs.cells⟩
      refine List.rel_map (fun entry other hentry => ?_) hcells
      obtain ⟨first, cell⟩ := entry
      obtain ⟨second, twin⟩ := other
      obtain ⟨hmem, hsame, hcell⟩ := hentry
      dsimp only at hsame hcell
      subst hsame
      dsimp only
      split
      · rename_i hname
        subst hname
        exact ⟨rfl, hchange _ _ hmem hcell⟩
      · exact ⟨rfl, hcell⟩
    present := fun other hother => by
      by_cases hname : other = name
      · subst hname
        obtain ⟨cell, hcell⟩ := Option.isSome_iff_exists.mp (hpairs.present other hother)
        rw [World.cell?_modifyCell hcell]
        rfl
      · rw [World.cell?_modifyCell_of_ne hname]
        exact hpairs.present other hother }

end Pairs

end Bond

end SharedCell
