import Mathlib
import SharedCell.Proofs.Twins.Performances

/-!
# Worlds that differ in their logs

What is in the log of a world is reported, but no operation depends on it.  Worlds that differ in
nothing else give the same replies to whatever is performed in them.
-/

namespace SharedCell

variable {β : Type}

namespace World

/-- Worlds that are the same but for what happened before. -/
structure Agrees (left right : World β) : Prop where
  objects : right.objects = left.objects
  holders : right.holders = left.holders
  nextHolder : right.nextHolder = left.nextHolder
  raws : right.raws = left.raws
  cells : right.cells = left.cells
  told : right.told = left.told
  scripts : right.scripts = left.scripts
  traced : right.traced = left.traced

namespace Agrees

variable {left right last : World β}

theorem refl (world : World β) : world.Agrees world :=
  ⟨rfl, rfl, rfl, rfl, rfl, rfl, rfl, rfl⟩

theorem symm (hagrees : left.Agrees right) : right.Agrees left where
  objects := hagrees.objects.symm
  holders := hagrees.holders.symm
  nextHolder := hagrees.nextHolder.symm
  raws := hagrees.raws.symm
  cells := hagrees.cells.symm
  told := hagrees.told.symm
  scripts := hagrees.scripts.symm
  traced := hagrees.traced.symm

theorem trans (hfirst : left.Agrees right) (hsecond : right.Agrees last) : left.Agrees last where
  objects := hsecond.objects.trans hfirst.objects
  holders := hsecond.holders.trans hfirst.holders
  nextHolder := hsecond.nextHolder.trans hfirst.nextHolder
  raws := hsecond.raws.trans hfirst.raws
  cells := hsecond.cells.trans hfirst.cells
  told := hsecond.told.trans hfirst.told
  scripts := hsecond.scripts.trans hfirst.scripts
  traced := hsecond.traced.trans hfirst.traced

theorem trace (world : World β) (thread : ℕ) (event : Event) :
    world.Agrees (world.trace thread event) := by
  obtain ⟨log, htraced⟩ := world.exists_traced thread event
  rw [htraced]
  exact ⟨rfl, rfl, rfl, rfl, rfl, rfl, rfl, rfl⟩

theorem ask (world : World β) (thread : ℕ) (guard : Guard) (obj : ObjectId) :
    world.Agrees (world.ask thread guard obj) := by
  obtain ⟨log, hasked⟩ := world.exists_asked thread guard obj
  rw [hasked]
  exact ⟨rfl, rfl, rfl, rfl, rfl, rfl, rfl, rfl⟩

/-- Whatever is done depends on no log. -/
theorem eq (hagrees : left.Agrees right) :
    right = { left with log := right.log, stressed := right.stressed } := by
  obtain ⟨objects, holders, nextHolder, raws, cells, log, told, scripts, traced, stressed⟩ := right
  obtain ⟨rfl, rfl, rfl, rfl, rfl, rfl, rfl, rfl⟩ := hagrees
  rfl

theorem of_log (world : World β) (log : List (ℕ × Event)) (stressed : Bool) :
    world.Agrees { world with log, stressed } :=
  ⟨rfl, rfl, rfl, rfl, rfl, rfl, rfl, rfl⟩

theorem addCell (hagrees : left.Agrees right) (name : String) (cell : Cell) :
    (left.addCell name cell).Agrees (right.addCell name cell) :=
  { hagrees with cells := congrArg ((name, cell) :: ·) hagrees.cells }

theorem modifyCell (hagrees : left.Agrees right) (name : String) (change : Cell → Cell) :
    (left.modifyCell name change).Agrees (right.modifyCell name change) :=
  { hagrees with cells := congrArg (List.map _) hagrees.cells }

theorem cell? (hagrees : left.Agrees right) (name : String) : right.cell? name = left.cell? name := by
  rw [World.cell?, hagrees.cells, World.cell?]

variable [Resident β]

theorem facts (hagrees : left.Agrees right) : right.facts = left.facts := by
  rw [hagrees.eq]
  rfl

theorem acquire (hagrees : left.Agrees right) (thread : ℕ) (obj : ObjectId) :
    (left.acquire thread obj).Agrees (right.acquire thread obj) := by
  rw [hagrees.eq]
  exact of_log (left.acquire thread obj) _ _

theorem release (hagrees : left.Agrees right) (thread : ℕ) (obj : ObjectId) :
    (left.release thread obj).Agrees (right.release thread obj) := by
  rw [hagrees.eq, release_eq left,
    release_eq { left with log := right.log, stressed := right.stressed }]
  exact ⟨rfl, rfl, rfl, rfl, rfl, rfl, rfl, rfl⟩

theorem letGo (hagrees : left.Agrees right) (thread : ℕ) (obj : ObjectId) :
    (left.letGo thread obj).1.Agrees (right.letGo thread obj).1 ∧
      (right.letGo thread obj).2 = (left.letGo thread obj).2 := by
  refine ⟨hagrees.release thread obj, ?_⟩
  rw [hagrees.eq]
  rfl

end Agrees

end World

variable [Resident β]

/-! ## The bond -/

theorem Cell.write_congr {cell other : Cell} (slot : Slot) (heq : other = cell) :
    { other with slot } = { cell with slot } := by
  rw [heq]

theorem Cell.leave_congr {cell other : Cell} (thread : ℕ) (heq : other = cell) :
    other.leave thread = cell.leave thread := by
  rw [heq]

/-- All is the same but for the logs. -/
def unlogged (β : Type) [Resident β] : Bond β β where
  bodies body other := other = body
  cells _ cell other := other = cell
  full := true
  hidden := none
  logged := false
  facts heq := congrArg _ heq
  count heq := congrArg _ heq
  acquire heq := congrArg _ heq
  release heq _ := by
    subst heq
    exact ⟨rfl, rfl⟩
  freeze heq := congrArg _ heq
  make mutability payload _ := by
    cases (Resident.make mutability payload : Option β) with
    | none => exact .inl ⟨rfl, rfl⟩
    | some body => exact .inr ⟨body, body, rfl, rfl, rfl⟩
  setPayload payload _ heq := congrArg (fun body : β => Resident.setPayload body payload) heq
  isMutable _ heq := congrArg _ heq
  shape layout _ heq := congrArg _ heq
  offer _ := rfl
  same (_ : ¬ none = some _) := Iff.rfl
  slot heq := congrArg _ heq
  guard heq := congrArg _ heq
  write slot heq := Cell.write_congr slot heq
  leave thread heq := Cell.leave_congr thread heq

/-! ## Performances -/

variable {left right : World β}

mutual

theorem Operation.suits_of_ordinary : ∀ op : Operation, op.ordinary = true → op.suits true none = true
  | .alloc _ _ _ _ script, hordinary => by
    rw [Operation.suits, Bool.true_or, Bool.true_and]
    exact Operation.suitsAll_of_ordinary script hordinary
  | .rounds _ (some body), hordinary => Operation.suitsAll_of_ordinary body hordinary
  | .rounds _ none, _ => rfl
  | .onCell _ verb .., _ => by cases verb <;> rfl
  | .race .., hordinary | .stress .., hordinary => by cases hordinary
  | .malformed, _ | .clone .., _ | .drop _, _ | .freeze _, _ | .info _, _ | .mutate .., _
  | .sameObject .., _ | .compare .., _ | .hash _, _ | .identity _, _ | .debug .., _
  | .display .., _ | .intoRaw .., _ | .fromRaw .., _ | .check .., _ | .ensure .., _
  | .compareErrors .., _ | .newCell .., _ | .dropCell _, _ | .intoInner .., _
  | .freezeCell _, _ => rfl

theorem Operation.suitsAll_of_ordinary :
    ∀ ops : List Operation, Operation.ordinaryAll ops = true → Operation.suitsAll true none ops = true
  | [], _ => rfl
  | op :: ops, hordinary => by
    obtain ⟨hop, hops⟩ := (Operation.ordinaryAll_cons op ops).mp hordinary
    exact Operation.suitsAll_cons.mpr
      ⟨Operation.suits_of_ordinary op hop, Operation.suitsAll_of_ordinary ops hops⟩

end

namespace World

theorem Agrees.pairs (hagrees : left.Agrees right)
    (hscripts : ∀ obj object, left.object? obj = some object →
      Operation.ordinaryAll object.script = true) : (unlogged β).Pairs left right where
  objects obj := by
    rw [object?, object?, hagrees.objects]
    cases left.objects[obj]? with
    | none => exact .inl ⟨rfl, rfl⟩
    | some object => exact .inr ⟨object, object, rfl, rfl, rfl, rfl, rfl, rfl, rfl⟩
  suited obj object hobject := Operation.suitsAll_of_ordinary _ (hscripts obj object hobject)
  holders := hagrees.holders
  nextHolder := hagrees.nextHolder
  raws := hagrees.raws
  cells := by
    rw [hagrees.cells]
    exact List.forall₂_same.mpr fun entry _ => ⟨rfl, rfl⟩
  present _ hhidden := by cases hhidden
  log hlogged := by cases hlogged
  told := hagrees.told
  scripts := hagrees.scripts
  traced := hagrees.traced

end World

/-- Objects that have the same bodies are the same. -/
theorem Bond.Pairs.objects_eq {bond : Bond β β} (hpairs : bond.Pairs left right)
    (hbodies : ∀ body other, bond.bodies body other → other = body) :
    right.objects = left.objects := by
  apply Array.ext_getElem?
  intro obj
  rcases hpairs.objects obj with ⟨hleft, hright⟩ | ⟨object, other, hleft, hright, halike⟩
  · exact hright.trans hleft.symm
  · rw [show right.objects[obj]? = some other from hright,
      show left.objects[obj]? = some object from hleft]
    obtain ⟨name, body, refs, script, destroyed⟩ := other
    obtain ⟨rfl, hbody, rfl, rfl, rfl⟩ := halike
    obtain rfl := hbodies _ _ hbody
    rfl

theorem Bond.Pairs.agrees (hpairs : (unlogged β).Pairs left right) : left.Agrees right where
  objects := hpairs.objects_eq fun _ _ hbody => hbody
  holders := hpairs.holders
  nextHolder := hpairs.nextHolder
  raws := hpairs.raws
  cells := hpairs.cells_eq fun _ _ _ hcell => hcell
  told := hpairs.told
  scripts := hpairs.scripts
  traced := hpairs.traced

/-- Worlds that differ in their logs only go in step for all operations. -/
theorem World.Agrees.performsAll [Lawful β] {ops : List Operation} (hagrees : left.Agrees right)
    (hsound : left.Sound 0) (hordinary : Operation.ordinaryAll ops = true) :
    InStep Agrees (Operation.PerformsAll left ops) (Operation.PerformsAll right ops) := by
  have hpairs := hagrees.pairs hsound.scripts
  have hsuits := Operation.suitsAll_of_ordinary ops hordinary
  have hstep : InStep (unlogged β).Pairs (Operation.PerformsAll left ops)
      (Operation.PerformsAll right ops) :=
    Operation.performsAll_inStep hpairs hsound rfl hsuits
  exact hstep.mono fun _ _ _ _ _ hlater => hlater.agrees

end SharedCell
