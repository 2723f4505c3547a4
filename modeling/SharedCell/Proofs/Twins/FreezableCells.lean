import Mathlib
import SharedCell.Proofs.Solo.Freezing

/-!
# Cells that look the same

A freezable cell and an atomic one with the same guard do the same for what both of them offer, as
long as the guard accepts what is stored.  The only difference is that the atomic cell asks its
guard first, which is in the log and nowhere else.

A freezable cell is also compared with itself here, whatever its guard accepts: that shows that what
both cells offer leaves it a freezable cell with the same guard.
-/

namespace SharedCell

open Operation

variable {β : Type} {name : String} {guard : Guard} {frozen : Bool}

/-- What a freezable cell would be if it had been frozen before: it also counts the user that has taken
the freezable one out, and does not tell those that look at it from others. -/
def Cell.seen (frozen : Bool) (cell : Cell) : Cell :=
  if frozen then
    { cell with kind := .atomic, users := cell.users + cell.out.toNat, out := false, lookers := [] }
  else cell

/-- A freezable cell and one that cannot be told apart from it by what both of them offer. -/
structure Cell.Resembles (guard : Guard) (frozen : Bool) (cell other : Cell) : Prop where
  kind : cell.kind = .freezable
  guard : cell.guard = guard
  same : other = cell.seen frozen

namespace Cell.Resembles

variable {cell other : Cell}

theorem write (hresembles : cell.Resembles guard frozen other) (slot : Slot) :
    ({ cell with slot } : Cell).Resembles guard frozen { other with slot } := by
  obtain ⟨hkind, hguard, rfl⟩ := hresembles
  refine ⟨hkind, hguard, ?_⟩
  cases frozen <;> rfl

theorem leave (hresembles : cell.Resembles guard frozen other) (thread : ℕ) :
    (cell.leave thread).Resembles guard frozen (other.leave thread) := by
  obtain ⟨hkind, hguard, rfl⟩ := hresembles
  refine ⟨(cell.leave_kind thread).trans hkind, (cell.leave_guard thread).trans hguard, ?_⟩
  obtain ⟨kind, own, slot, users, out, lookers⟩ := cell
  cases out <;> cases frozen <;> simp [Cell.leave, Cell.seen]

theorem use (hresembles : cell.Resembles guard frozen other) (hin : cell.out = false) (thread : ℕ)
    (looks : Bool) : (cell.use thread looks).Resembles guard frozen (other.use thread looks) := by
  obtain ⟨hkind, hguard, rfl⟩ := hresembles
  obtain ⟨kind, own, slot, users, out, lookers⟩ := cell
  obtain rfl : kind = .freezable := hkind
  obtain rfl : out = false := hin
  cases frozen <;> cases looks <;> exact ⟨rfl, hguard, rfl⟩

/-- Nothing but the kind is different while nobody uses the cells. -/
theorem resting (hresembles : cell.Resembles guard frozen other) (hunused : cell.Unused) :
    other = if frozen then { cell with kind := .atomic } else cell := by
  obtain ⟨-, -, rfl⟩ := hresembles
  obtain ⟨kind, own, slot, users, out, lookers⟩ := cell
  obtain ⟨rfl, rfl, rfl⟩ := hunused
  cases frozen <;> rfl

theorem slot (hresembles : cell.Resembles guard frozen other) : other.slot = cell.slot := by
  rw [hresembles.same]
  cases frozen <;> rfl

theorem guard_eq (hresembles : cell.Resembles guard frozen other) : other.guard = cell.guard := by
  rw [hresembles.same]
  cases frozen <;> rfl

theorem kind_eq (hresembles : cell.Resembles guard frozen other) :
    other.kind = if frozen then .atomic else .freezable := by
  rw [hresembles.same, ← hresembles.kind]
  cases frozen <;> rfl

theorem unused (hresembles : cell.Resembles guard frozen other) (hunused : cell.Unused) :
    other.Unused := by
  rw [hresembles.resting hunused]
  cases frozen
  · exact hunused
  · exact ⟨hunused.present, hunused.users, hunused.lookers⟩

end Cell.Resembles

/-- All is the same but for the logs and for one cell, which is freezable in one of the worlds and
may have been frozen in the other one. -/
def resembling (β : Type) [Resident β] (name : String) (guard : Guard) (frozen : Bool) : Bond β β :=
  { unlogged β with
    cells := fun other cell twin =>
      if other = name then cell.Resembles guard frozen twin else twin = cell
    hidden := some name
    same := fun hopen => by
      rw [if_neg fun heq => hopen (congrArg some heq.symm)]
    slot := fun hcell => by
      split at hcell
      · exact hcell.slot
      · rw [hcell]
    guard := fun hcell => by
      split at hcell
      · exact hcell.guard_eq
      · rw [hcell]
    write := fun slot hcell => by
      split at hcell
      · rw [if_pos ‹_›]
        exact hcell.write slot
      · rw [if_neg ‹_›, hcell]
    leave := fun thread hcell => by
      split at hcell
      · rw [if_pos ‹_›]
        exact hcell.leave thread
      · rw [if_neg ‹_›, hcell] }

variable [Resident β] {left right : World β}

namespace Bond.Pairs

/-- What happened does not matter if the logs are not compared. -/
theorem agreeing {bond : Bond β β} {later : World β} (hpairs : bond.Pairs left right)
    (hlogged : bond.logged = false) (hagrees : right.Agrees later) : bond.Pairs left later := by
  rw [hagrees.eq]
  exact { hpairs with
    log := fun hlog => by
      rw [hlogged] at hlog
      cases hlog }

/-- The two cells that resemble each other. -/
theorem resembles (hpairs : (resembling β name guard frozen).Pairs left right) :
    ∃ cell other, left.cell? name = some cell ∧ right.cell? name = some other ∧
      cell.Resembles guard frozen other := by
  obtain ⟨cell, hcell⟩ := Option.isSome_iff_exists.mp (hpairs.present name rfl)
  rcases hpairs.cell_cases name with ⟨hleft, -⟩ | ⟨found, other, hleft, hright, hrelated⟩
  · rw [hleft] at hcell
    cases hcell
  · refine ⟨found, other, hleft, hright, ?_⟩
    have hresembles :
        if name = name then found.Resembles guard frozen other else other = found := hrelated
    rwa [if_pos rfl] at hresembles

/-- A call begins on both of these cells. -/
theorem useCell (hpairs : (resembling β name guard frozen).Pairs left right)
    (hin : ∀ cell, (name, cell) ∈ left.cells → cell.out = false) (thread : ℕ) (looks : Bool) :
    (resembling β name guard frozen).Pairs (left.useCell name thread looks)
      (right.useCell name thread looks) := by
  apply hpairs.modifyCell
  intro cell other hmem hrelated
  have hresembles :
      if name = name then cell.Resembles guard frozen other else other = cell := hrelated
  rw [if_pos rfl] at hresembles
  simpa [resembling] using hresembles.use (hin cell hmem) thread looks

/-- Between operations there is no other difference than the kind of the cell. -/
theorem shared (hpairs : (resembling β name guard true).Pairs left right) (hsound : left.Sound 0) :
    (left.shareCell name).Agrees right where
  objects := hpairs.objects_eq fun _ _ hbody => hbody
  holders := hpairs.holders
  nextHolder := hpairs.nextHolder
  raws := hpairs.raws
  cells := by
    have hboth := (List.forall₂_and_left _ _).mpr ⟨fun _ hmem => hmem, hpairs.cells⟩
    have heq : List.Forall₂ (fun entry other => other = if entry.1 = name then
        (entry.1, { entry.2 with kind := .atomic }) else entry) left.cells right.cells := by
      refine hboth.imp ?_
      rintro ⟨first, cell⟩ ⟨second, twin⟩ ⟨hmem, rfl, hrelated⟩
      have hresembles :
          if second = name then cell.Resembles guard true twin else twin = cell := hrelated
      split at hresembles
      · rename_i hname
        obtain ⟨hunused, -⟩ := hsound.cell_resting (lookup_of_mem hsound.housed.names hmem)
        rw [if_pos hname, hresembles.resting hunused, if_pos rfl]
      · rename_i hname
        rw [if_neg hname, hresembles]
    have hmapped := List.forall₂_map_left_iff.mpr (heq.imp fun _ _ hother => hother.symm)
    exact (List.forall₂_eq_eq_eq ▸ hmapped).symm
  told := hpairs.told
  scripts := hpairs.scripts
  traced := hpairs.traced

end Bond.Pairs

/-- A world with a freezable cell goes in step with the one in which the cell is what it would be if
it had been frozen. -/
theorem World.Agrees.resembles {cell : Cell}
    (hagrees : (left.modifyCell name (Cell.seen frozen)).Agrees right) (hsound : left.Sound 0)
    (hcell : left.cell? name = some cell) (hkind : cell.kind = .freezable)
    (hguard : cell.guard = guard)
    (hscripts : ∀ obj object, left.object? obj = some object →
      suitsAll true (some name) object.script = true) :
    (resembling β name guard frozen).Pairs left right where
  objects obj := by
    rw [object?, object?, hagrees.objects]
    rw [show (left.modifyCell name (Cell.seen frozen)).objects = left.objects from rfl]
    cases left.objects[obj]? with
    | none => exact .inl ⟨rfl, rfl⟩
    | some object => exact .inr ⟨object, object, rfl, rfl, rfl, rfl, rfl, rfl, rfl⟩
  suited := hscripts
  holders := hagrees.holders
  nextHolder := hagrees.nextHolder
  raws := hagrees.raws
  cells := by
    rw [hagrees.cells, World.modifyCell]
    refine List.forall₂_map_right_iff.mpr (List.forall₂_same.mpr ?_)
    rintro ⟨other, found⟩ hmem
    by_cases hname : other = name
    · subst hname
      obtain rfl := Option.some.inj ((lookup_of_mem hsound.housed.names hmem).symm.trans hcell)
      have hresembles : found.Resembles guard frozen (found.seen frozen) := ⟨hkind, hguard, rfl⟩
      simpa [resembling] using hresembles
    · simp [resembling, hname]
  present := by
    rintro _ ⟨⟩
    exact Option.isSome_of_eq_some hcell
  log hlogged := by cases hlogged
  told := hagrees.told
  scripts := hagrees.scripts
  traced := hagrees.traced

/-! ## What both kinds of cells offer -/

namespace Operation

/-- The verbs that a freezable cell offers, texts apart, and the actions that they stand for. -/
inductive Plain : Verb → (Option ObjectId → Option ObjectId → Action) → Prop where
  | get : Plain .get fun _ _ => .get
  | set : Plain .set fun _ new => .set new
  | compareAndSwap : Plain .compareAndSwap .compareAndSwap
  | compareAndSet : Plain .compareAndSet .compareAndSet

end Operation

/-- The object behind an argument. -/
def Arg.unit? (world : World β) : Arg → Option ObjectId
  | .named name => (world.holder? name).map (·.unit)
  | _ => none

namespace Operation

/-- The object that an operation is to put into a cell. -/
def offered? (world : World β) (name : String) : Operation → Option ObjectId
  | .onCell (some cell) .set new _ _ | .onCell (some cell) .compareAndSwap new _ _
  | .onCell (some cell) .compareAndSet new _ _ => if cell = name then new.unit? world else none
  | _ => none

open Attempt

variable {verb : Verb} {action : Option ObjectId → Option ObjectId → Action} {world next : World β}

/-- What is checked before a call, and what is used from then on. -/
def preparing (verb : Verb) (action : Option ObjectId → Option ObjectId → Action)
    (new expected : Arg) : Attempt β (Action × List ℕ) := do
  let new ← arg new
  let (holder, expected) ← comparand .atomic verb expected
  let ids ← use [holder, new]
  pure (action expected (new.map (·.unit)), ids)

/-- A call begins in the same way on cells of both kinds. -/
theorem start_plain {cell : Cell} (hplain : Plain verb action) (hcell : world.cell? name = some cell)
    (hkind : cell.kind ≠ .slot) (hunused : cell.Unused) (new expected : Arg)
    (target : Option String) :
    (onCell (some name) verb new expected target).start 0 world =
      match (preparing verb action new expected).run world with
      | .ok ((action, ids), next) => (next.useCell name 0 verb.looks,
          .call (Solo.exchanging name ids action target (action.opening cell.kind)))
      | .error fault => (world, .tidy [] (.fault fault)) := by
  obtain ⟨kind, guard, slot, users, out, lookers⟩ := cell
  obtain ⟨rfl, rfl, rfl⟩ := hunused
  let call (holder : Option Holder) (expected : Option ObjectId) (ids : List ℕ) : Call :=
    let action := action expected (holder.map (·.unit))
    Solo.exchanging name ids action target (action.opening kind)
  have hstart : (startOnCell 0 (some name) verb new expected target : Attempt β Frame).run world =
      ((arg new).run world).bind fun (holder, after) =>
        ((comparand .atomic verb expected).run after).bind fun ((compared, expected), later) =>
          ((use [compared, holder]).run later).bind fun (ids, last) =>
            .ok (.call (call holder expected ids), last.useCell name 0 verb.looks) := by
    cases hplain <;> cases kind <;> first | exact absurd rfl hkind |
    · simp only [startOnCell, Attempt.cell, field, StateT.run_bind, pure_bind, StateT.run_get,
        bind_assoc, hcell]
      rfl
  have hpreparing : (preparing verb action new expected : Attempt β _).run world =
      ((arg new).run world).bind fun (holder, after) =>
        ((comparand .atomic verb expected).run after).bind fun ((compared, expected), later) =>
          ((use [compared, holder]).run later).bind fun (ids, last) =>
            .ok ((action expected (holder.map (·.unit)), ids), last) := rfl
  rw [start, begin?, hstart, hpreparing]
  cases (arg new : Attempt β _).run world with
  | error fault => rfl
  | ok first =>
    simp only [Except.bind]
    cases (comparand .atomic verb expected : Attempt β _).run first.2 <;> rfl

variable (verb action) in
theorem agree_preparing {bond : Bond β β} (hpairs : bond.Pairs left right)
    (hfull : bond.full = true) (new expected : Arg) :
    Agree bond (fun _ => True) left right (preparing verb action new expected)
      (preparing verb action new expected) :=
  (checks_arg hpairs new).agree fun _ _ => (checks_comparand hpairs .atomic (.inl hfull)).agree
    fun _ _ => (agree_use hpairs _).bind fun _ _ _ _ hnext => agree_pure hnext trivial

omit [Resident β] in
theorem arg_unit? {argument : Arg} {holder : Option Holder}
    (hrun : (arg argument : Attempt β (Option Holder)).run world = .ok (holder, next)) :
    holder.map (·.unit) = argument.unit? world := by
  cases argument with
  | empty =>
    obtain ⟨rfl, -⟩ := run_pure.mp hrun
    rfl
  | malformed => cases run_throw.mp hrun
  | named name =>
    have hbind : (named name >>= fun found => pure (some found) :
        Attempt β (Option Holder)).run world = .ok (holder, next) := hrun
    obtain ⟨found, between, hfound, hpure⟩ := run_bind.mp hbind
    obtain ⟨rfl, -⟩ := run_pure.mp hpure
    have hholder := bind_get hfound
    rw [Arg.unit?]
    split at hholder
    · cases run_throw.mp hholder
    · rename_i holder hsome
      split at hholder
      · cases run_throw.mp hholder
      · obtain ⟨rfl, -⟩ := run_pure.mp hholder
        rw [hsome]

/-- Only the use of handles is marked, and what is to be stored is what was offered. -/
theorem preparing_run {new expected : Arg} {asked : Action} {ids : List ℕ}
    (hplain : Plain verb action)
    (hrun : (preparing verb action new expected : Attempt β _).run world =
      .ok ((asked, ids), next)) (name : String) (target : Option String) :
    (∃ holders, next = { world with holders }) ∧ (∃ compared stored, asked = action compared stored) ∧
      ∀ obj, asked.new? = some obj →
        (onCell (some name) verb new expected target).offered? world name = some obj := by
  obtain ⟨holder, hholder, hrest⟩ := bind_stays (stays_arg new) hrun
  obtain ⟨⟨compared, object⟩, -, hrest⟩ := bind_stays (stays_comparand .atomic verb expected) hrest
  obtain ⟨used, after, huse, hpure⟩ := run_bind.mp hrest
  obtain ⟨heq, rfl⟩ := run_pure.mp hpure
  obtain ⟨rfl, rfl⟩ := Prod.mk.inj heq
  have hmodified := bind_modify huse
  obtain ⟨rfl, rfl⟩ := run_pure.mp hmodified
  obtain ⟨holders, hused, -⟩ := exists_used world ([compared, holder].filterMap (·.map (·.id)))
  refine ⟨⟨holders, hused⟩, ⟨_, _, rfl⟩, fun obj hobj => ?_⟩
  have hunit := arg_unit? hholder
  cases hplain with
  | get => cases hobj
  | _ =>
    rw [offered?, if_pos rfl, ← hunit]
    exact hobj

/-- What both kinds of cells offer is the same for a cell of either kind. -/
theorem Plain.suits (hplain : Plain verb action) (compared stored : Option ObjectId) :
    (action compared stored).suits true false = true := by
  cases hplain <;> rfl

theorem Plain.errand (hplain : Plain verb action) (compared stored : Option ObjectId) :
    (action compared stored).errand .atomic = (action compared stored).errand .freezable := by
  cases hplain <;> rfl

theorem Plain.ordinary (hplain : Plain verb action) (new expected : Arg) (target : Option String) :
    (onCell (some name) verb new expected target).ordinary = true := by
  cases hplain <;> rfl

/-- A cell whose guard accepts what it is asked about goes on as one that is not frozen yet, which
asks no guard. -/
theorem ends_plain {world : World β} {cell : Cell} {asked : Action} (ids : List ℕ)
    (target : Option String) (hnames : (world.cells.map Prod.fst).Nodup)
    (hcell : world.cell? name = some cell) (haccepted : frozen = true → ∀ obj,
      asked.new? = some obj → cell.guard.accepts (world.facts obj) = true)
    (herrand : asked.errand .atomic = asked.errand .freezable) :
    ∃ later, world.Agrees later ∧ ∀ next reply,
      Solo.Ends (world, [.call (Solo.exchanging name ids asked target
          (asked.opening (if frozen then .atomic else .freezable)))]) next reply ↔
        Solo.Ends (later, [.call (Solo.exchanging name ids asked target
          (asked.opening .freezable))]) next reply := by
  cases frozen with
  | false => exact ⟨world, .refl world, fun _ _ => Iff.rfl⟩
  | true =>
    rw [if_pos rfl]
    cases hnew : asked.new? with
    | none =>
      have hsame : asked.opening .atomic = asked.opening .freezable := by
        simp [Action.opening, hnew, herrand]
      exact ⟨world, .refl world, fun next reply => by rw [hsame]⟩
    | some obj =>
      have hatomic : asked.opening .atomic = .asking obj (asked.errand .freezable) := by
        simp [Action.opening, hnew, herrand]
      have hfreezable :
          asked.opening .freezable = .calling (.locking (asked.errand .freezable)) := by
        simp [Action.opening]
      have hself : world.modifyCell name ({ · with slot := cell.slot }) = world :=
        World.modifyCell_self hnames hcell rfl
      have hnext := @Solo.next_accepted β _ world (Solo.exchanging name ids asked target
        (.asking obj (asked.errand .freezable))) cell obj _ [] hcell rfl (haccepted rfl obj hnew)
      rw [show Solo.asked world (Solo.exchanging name ids asked target
          (.asking obj (asked.errand .freezable))).cell cell obj = world.ask 0 cell.guard obj from
        congrArg (World.ask · 0 cell.guard obj) hself] at hnext
      refine ⟨world.ask 0 cell.guard obj, .ask world 0 cell.guard obj, fun next reply => ?_⟩
      rw [hatomic, hfreezable]
      exact Solo.ends_step hnext

/-- A call on the cell is performed in step whether the cell is frozen or not. -/
theorem plain_inStep [Lawful β] {new expected : Arg} {target : Option String}
    (hpairs : (resembling β name guard frozen).Pairs left right) (hsound : left.Sound 0)
    (hplain : Plain verb action) (haccepted : frozen = true → ∀ obj,
      (onCell (some name) verb new expected target).offered? left name = some obj →
        guard.accepts (left.facts obj) = true) :
    InStep (resembling β name guard frozen).Pairs
      ((onCell (some name) verb new expected target).Performs left)
      ((onCell (some name) verb new expected target).Performs right) := by
  obtain ⟨cell, other, hleft, hright, hresembles⟩ := hpairs.resembles
  obtain ⟨hunused, -⟩ := hsound.cell_resting hleft
  have hordinary : (onCell (some name) verb new expected target).ordinary = true :=
    hplain.ordinary new expected target
  have hother : other.kind ≠ .slot := by
    rw [hresembles.kind_eq]
    cases frozen <;> decide
  have hstart := start_plain hplain hleft (by simp [hresembles.kind]) hunused new expected target
  have hbegun := start_plain hplain hright hother (hresembles.unused hunused) new expected target
  rw [hresembles.kind] at hstart
  rcases agree_preparing verb action hpairs rfl new expected with
    ⟨fault, hfirst, hsecond⟩ | ⟨⟨asked, ids⟩, next, twin, hfirst, hsecond, hnext, -⟩
  · rw [hfirst] at hstart
    rw [hsecond] at hbegun
    refine inStep_of_start hsound hordinary rfl right (.tidy [] (.fault fault))
      (fun twin reply => ?_) ?_ ?_ ?_
    · rw [performs_iff, hbegun]
    · rwa [hstart]
    · rw [hstart]
    · rw [hstart]
      rfl
  · rw [hfirst] at hstart
    rw [hsecond] at hbegun
    obtain ⟨⟨holders, rfl⟩, ⟨compared, stored, rfl⟩, hoffered⟩ :=
      preparing_run hplain hfirst name target
    have hused : (resembling β name guard frozen).Pairs
        (({ left with holders } : World β).useCell name 0 verb.looks)
        (twin.useCell name 0 verb.looks) := by
      refine hnext.useCell (fun cell hmem => ?_) 0 verb.looks
      exact (hsound.cell_resting (lookup_of_mem hsound.housed.names hmem)).1.present
    obtain ⟨found, same, -, hsame, hboth⟩ := hused.resembles
    have hguard : same.guard = guard := hboth.guard_eq.trans hboth.guard
    have hnames : ((twin.useCell name 0 verb.looks).cells.map Prod.fst).Nodup := by
      rw [hused.cellNames, World.useCell, World.names_modifyCell]
      exact hsound.housed.names
    have haccepts : frozen = true → ∀ obj, (action compared stored).new? = some obj →
        same.guard.accepts ((twin.useCell name 0 verb.looks).facts obj) = true := by
      intro hfrozen obj hnew
      rw [hused.facts, hguard]
      exact haccepted hfrozen obj (hoffered obj hnew)
    obtain ⟨later, hlater, hends⟩ := ends_plain ids target hnames hsame haccepts
      (hplain.errand compared stored)
    refine inStep_of_start hsound hordinary rfl later _ (fun last reply => ?_) ?_ rfl ?_
    · rw [performs_iff, hbegun, hstart, hresembles.kind_eq]
      exact hends last reply
    · rw [hstart]
      exact hused.agreeing rfl hlater
    · rw [hstart, Bond.Suited, Frame.suits, Bool.and_eq_true]
      have hhidden : apart (some name) (some name) = false := by simp [apart]
      refine ⟨?_, rfl⟩
      exact hhidden ▸ hplain.suits compared stored

end Operation

end SharedCell
