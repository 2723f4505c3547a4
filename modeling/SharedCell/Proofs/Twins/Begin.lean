import Mathlib
import SharedCell.Proofs.Agenda.Attempt
import SharedCell.Proofs.Twins.Relation

/-!
# Beginnings in step

An operation that begins in two worlds that go in step passes the same checks in both of them, or
fails with the same fault, puts the same frame on the agenda, and leaves worlds that go in step.
-/

namespace SharedCell

open Operation

variable {β γ : Type} [Resident β] [Resident γ] {bond : Bond β γ} {left : World β}
  {right : World γ} {thread : ℕ}

/-- What two worlds that go in step can both have on an agenda. -/
abbrev Bond.Suited (bond : Bond β γ) (frame : Frame) : Prop :=
  frame.suits bond.full bond.hidden = true

/-! ## Attempts -/

namespace Attempt

variable {α δ : Type} {good : α → Prop} {fine : δ → Prop}

section Runs

variable {attempt : Attempt β α} {rest : α → Attempt β δ} {world next : World β}

omit [Resident β] in
theorem run_bind_ok {value : α} (hrun : attempt.run world = .ok (value, next)) :
    (attempt >>= rest).run world = (rest value).run next := by
  rw [StateT.run_bind, hrun]
  rfl

omit [Resident β] in
theorem run_bind_error {fault : Fault} (hrun : attempt.run world = .error fault) :
    (attempt >>= rest).run world = .error fault := by
  rw [StateT.run_bind, hrun]
  rfl

end Runs

/-- Two attempts that fail with the same fault, or have the same good result and leave worlds that
go in step. -/
def Agree (bond : Bond β γ) (good : α → Prop) (left : World β) (right : World γ)
    (attempt : Attempt β α) (other : Attempt γ α) : Prop :=
  (∃ fault, attempt.run left = .error fault ∧ other.run right = .error fault) ∨
    ∃ value next twin, attempt.run left = .ok (value, next) ∧
      other.run right = .ok (value, twin) ∧ bond.Pairs next twin ∧ good value

/-- Two attempts that come to the same result without any change. -/
def Checks (left : World β) (right : World γ) (attempt : Attempt β α) (other : Attempt γ α) : Prop :=
  (∃ fault, attempt.run left = .error fault ∧ other.run right = .error fault) ∨
    ∃ value, attempt.run left = .ok (value, left) ∧ other.run right = .ok (value, right)

section Combine

variable {attempt : Attempt β α} {other : Attempt γ α} {rest : α → Attempt β δ}
  {further : α → Attempt γ δ}

theorem Agree.bind (hagree : Agree bond good left right attempt other)
    (hrest : ∀ value next twin, good value → bond.Pairs next twin →
      Agree bond fine next twin (rest value) (further value)) :
    Agree bond fine left right (attempt >>= rest) (other >>= further) := by
  rcases hagree with ⟨fault, hleft, hright⟩ | ⟨value, next, twin, hleft, hright, hpairs, hgood⟩
  · exact .inl ⟨fault, run_bind_error hleft, run_bind_error hright⟩
  · rw [Agree, run_bind_ok hleft, run_bind_ok hright]
    exact hrest value next twin hgood hpairs

omit [Resident β] [Resident γ] in
theorem Checks.bind (hchecks : Checks left right attempt other)
    (hrest : ∀ value, attempt.run left = .ok (value, left) →
      Checks left right (rest value) (further value)) :
    Checks left right (attempt >>= rest) (other >>= further) := by
  rcases hchecks with ⟨fault, hleft, hright⟩ | ⟨value, hleft, hright⟩
  · exact .inl ⟨fault, run_bind_error hleft, run_bind_error hright⟩
  · rw [Checks, run_bind_ok hleft, run_bind_ok hright]
    exact hrest value hleft

/-- An attempt goes on after its checks with what these have found. -/
theorem Checks.agree (hchecks : Checks left right attempt other)
    (hrest : ∀ value, attempt.run left = .ok (value, left) →
      Agree bond fine left right (rest value) (further value)) :
    Agree bond fine left right (attempt >>= rest) (other >>= further) := by
  rcases hchecks with ⟨fault, hleft, hright⟩ | ⟨value, hleft, hright⟩
  · exact .inl ⟨fault, run_bind_error hleft, run_bind_error hright⟩
  · rw [Agree, run_bind_ok hleft, run_bind_ok hright]
    exact hrest value hleft

end Combine

theorem agree_get {rest : World β → Attempt β δ} {further : World γ → Attempt γ δ}
    (hrest : Agree bond fine left right (rest left) (further right)) :
    Agree bond fine left right (get >>= rest) (get >>= further) :=
  hrest

theorem agree_pure (hpairs : bond.Pairs left right) {value : α} (hgood : good value) :
    Agree bond good left right (pure value) (pure value) :=
  .inr ⟨value, left, right, rfl, rfl, hpairs, hgood⟩

theorem agree_throw (fault : Fault) :
    Agree bond good left right (throw fault : Attempt β α) (throw fault) :=
  .inl ⟨fault, rfl, rfl⟩

theorem agree_modify {change : World β → World β} {alter : World γ → World γ}
    (hchange : bond.Pairs (change left) (alter right)) :
    Agree bond (fun _ => True) left right (modify change : Attempt β PUnit) (modify alter) :=
  .inr ⟨⟨⟩, _, _, rfl, rfl, hchange, trivial⟩

theorem agree_answer (hpairs : bond.Pairs left right) (reply : Reply) :
    Agree bond bond.Suited left right (answer reply) (answer reply) :=
  agree_pure hpairs rfl

/-- An attempt changes both worlds and goes on. -/
theorem agree_change {change : World β → World β} {alter : World γ → World γ}
    {rest : PUnit → Attempt β δ} {further : PUnit → Attempt γ δ}
    (hrest : Agree bond fine (change left) (alter right) (rest ⟨⟩) (further ⟨⟩)) :
    Agree bond fine left right (modify change >>= rest) (modify alter >>= further) :=
  hrest

theorem agree_set {next : World β} {twin : World γ} {rest : PUnit → Attempt β δ}
    {further : PUnit → Attempt γ δ} (hrest : Agree bond fine next twin (rest ⟨⟩) (further ⟨⟩)) :
    Agree bond fine left right (set next >>= rest) (set twin >>= further) :=
  hrest

/-! ## Checks -/

section Checks

omit [Resident β] [Resident γ]

theorem checks_pure (value : α) : Checks left right (pure value) (pure value) :=
  .inr ⟨value, rfl, rfl⟩

theorem checks_throw (fault : Fault) :
    Checks left right (throw fault : Attempt β α) (throw fault) :=
  .inl ⟨fault, rfl, rfl⟩

theorem checks_get {rest : World β → Attempt β δ} {further : World γ → Attempt γ δ}
    (hrest : Checks left right (rest left) (further right)) :
    Checks left right (get >>= rest) (get >>= further) :=
  hrest

theorem checks_field (value : Option α) : Checks left right (field value) (field value) := by
  cases value with
  | none => exact checks_throw .malformed
  | some value => exact checks_pure value

theorem checks_require (condition : Bool) (fault : Fault) :
    Checks left right (require condition fault) (require condition fault) := by
  cases condition with
  | false => exact checks_throw fault
  | true => exact checks_pure ()

theorem checks_guardOf (guard : GuardArg) : Checks left right (guardOf guard) (guardOf guard) := by
  cases guard with
  | absent => exact checks_pure Guard.standard
  | given guard => exact checks_pure guard
  | malformed => exact checks_throw .malformed

end Checks

theorem checks_named (hpairs : bond.Pairs left right) (name : String) :
    Checks left right (named name) (named name) := by
  refine checks_get ?_
  rw [hpairs.holder?]
  split
  · exact checks_throw .unknownHandle
  · split
    · exact checks_throw .busy
    · exact checks_pure _

theorem checks_handle (hpairs : bond.Pairs left right) (name : Option String) :
    Checks left right (handle name) (handle name) :=
  (checks_field name).bind fun name _ => checks_named hpairs name

theorem checks_arg (hpairs : bond.Pairs left right) (argument : Arg) :
    Checks left right (arg argument) (arg argument) := by
  cases argument with
  | empty => exact checks_pure none
  | named name => exact (checks_named hpairs name).bind fun holder _ => checks_pure (some holder)
  | malformed => exact checks_throw .malformed

theorem checks_cell (hpairs : bond.Pairs left right) {name : Option String}
    (hname : apart bond.hidden name = true) : Checks left right (cell name) (cell name) := by
  refine (checks_field name).bind fun found hfound => checks_get ?_
  obtain ⟨rfl, -⟩ := run_field.mp hfound
  rw [hpairs.cell?_eq (apart_some.mp hname)]
  split
  · exact checks_throw .unknownCell
  · exact checks_pure _

theorem checks_newCellName (hpairs : bond.Pairs left right) (name : Option String) :
    Checks left right (newCellName name) (newCellName name) := by
  refine (checks_field name).bind fun name _ => checks_get ?_
  rw [hpairs.cell?_isNone]
  exact (checks_require _ _).bind fun _ _ => checks_pure name

/-- The address of an object that is not destroyed is there on every heap. -/
theorem checks_address (hpairs : bond.Pairs left right) {argument : Arg}
    (hcurrent : bond.full = true ∨ ∀ name obj object, argument = .named name →
      name.startsWith "@" = true → left.findObject? (name.drop 1).toString = some obj →
        left.object? obj = some object → object.destroyed = false) :
    Checks left right (address argument) (address argument) := by
  cases argument with
  | empty => exact checks_pure none
  | malformed => exact checks_throw .malformed
  | named name =>
    rw [address, address]
    split
    · rename_i haddress
      refine checks_get ?_
      rw [hpairs.findObject?]
      split
      · exact checks_throw .unknownObject
      · rename_i obj hobj
        refine checks_get ?_
        have hgone : (right.object? obj).any (·.destroyed) = (left.object? obj).any (·.destroyed) := by
          rcases hpairs.objects obj with
            ⟨hleft, hright⟩ | ⟨object, other, hleft, hright, halike⟩
          · rw [hleft, hright]
            rfl
          · rw [hleft, hright]
            exact halike.destroyed
        have hsame : (!(right.object? obj).any (·.destroyed) ||
              (Resident.offer γ).staleAddresses) =
            (!(left.object? obj).any (·.destroyed) || (Resident.offer β).staleAddresses) := by
          rw [hgone]
          rcases hcurrent with hfull | hcurrent
          · rw [bond.offer hfull]
          · cases hobject : left.object? obj with
            | none => rfl
            | some object =>
              have hlive := hcurrent name obj object rfl haddress hobj hobject
              simp [hlive]
        simp only [hsame]
        exact (checks_require _ _).bind fun _ _ => checks_pure (some obj)
    · exact (checks_named hpairs name).bind fun holder _ => checks_pure (some holder.unit)

/-! ## Changes -/

section Changes

theorem agree_pull (hpairs : bond.Pairs left right) (name : Option String) :
    Agree bond (fun _ => True) left right (pull name) (pull name) :=
  (checks_handle hpairs name).agree fun holder _ => (checks_require _ _).agree fun _ _ =>
    agree_change (agree_pure (hpairs.eraseHolder holder.id) trivial)

theorem agree_use (hpairs : bond.Pairs left right) (found : List (Option Holder)) :
    Agree bond (fun _ => True) left right (use found) (use found) :=
  agree_change (agree_pure (hpairs.useAll _) trivial)

theorem agree_consult (hpairs : bond.Pairs left right) (guard : Guard) (unit : Option ObjectId) :
    Agree bond (fun _ => True) left right (consult thread guard unit)
      (consult thread guard unit) := by
  cases unit with
  | none => exact agree_pure hpairs trivial
  | some obj =>
    refine agree_get ?_
    rw [hpairs.facts]
    exact agree_change (agree_pure (hpairs.ask thread guard obj) trivial)

theorem agree_enforce (hpairs : bond.Pairs left right) (guard : Guard) (unit : Option ObjectId) :
    Agree bond (fun _ => True) left right (enforce thread guard unit)
      (enforce thread guard unit) := by
  refine (agree_consult hpairs guard unit).bind fun accepted next twin _ hnext => ?_
  split
  · exact agree_pure hnext trivial
  · cases unit with
    | none => exact agree_pure hnext trivial
    | some obj => exact agree_change (agree_pure (hnext.trace thread _) trivial)

theorem agree_acquire (hpairs : bond.Pairs left right) (unit : Option ObjectId) :
    Agree bond (fun _ => True) left right
      (unit.forM fun obj => modify (·.acquire thread obj) : Attempt β Unit)
      (unit.forM fun obj => modify (·.acquire thread obj)) := by
  cases unit with
  | none => exact agree_pure hpairs trivial
  | some obj => exact agree_modify (hpairs.acquire thread obj)

theorem agree_addCell (hpairs : bond.Pairs left right) {name : String}
    (hname : bond.hidden ≠ some name) (kind : CellKind) (guard : Guard)
    (content : Option ObjectId) :
    Agree bond bond.Suited left right (addCell name kind guard content)
      (addCell name kind guard content) :=
  agree_change (agree_answer (hpairs.addCell ((bond.same hname).mpr rfl)) .ok)

/-- A call on a cell that is not hidden. -/
theorem agree_call (hpairs : bond.Pairs left right) {name : String} {action : Action}
    {copy : Option String} (hname : apart bond.hidden (some name) = true)
    (haction : action.suits bond.full true = true)
    (hcopy : copy.all (fun name => apart bond.hidden (some name)) = true) (cell : Cell)
    (target : Option String) (found : List (Option Holder)) :
    Agree bond bond.Suited left right
      (do pure (.call (← makeCall thread name cell action target copy found)))
      (do pure (.call (← makeCall thread name cell action target copy found))) := by
  have hmade : Agree bond (fun call => bond.Suited (.call call)) left right
      (makeCall thread name cell action target copy found)
      (makeCall thread name cell action target copy found) := by
    refine (agree_use hpairs found).bind fun ids next twin _ hnext => agree_change ?_
    have hused : bond.Pairs (next.useCell name thread action.looks)
        (twin.useCell name thread action.looks) := by
      refine hnext.modifyCell fun cell other _ hcell => ?_
      rw [(bond.same (apart_some.mp hname)).mp hcell]
      exact (bond.same (apart_some.mp hname)).mpr rfl
    refine agree_pure hused ?_
    rw [Bond.Suited, Frame.suits, Bool.and_eq_true]
    exact ⟨hname ▸ haction, hcopy⟩
  exact hmade.bind fun call next twin hcall hnext => agree_pure hnext hcall

end Changes

/-! ## Operations -/

section Operations

variable (thread) in
/-- References are gathered alike. -/
theorem gather_pairs (hpairs : bond.Pairs left right) (refs : List (Option String)) :
    bond.Pairs (gather thread refs left).1 (gather thread refs right).1 ∧
      (gather thread refs right).2 = (gather thread refs left).2 := by
  induction refs generalizing left right with
  | nil => exact ⟨hpairs, rfl⟩
  | cons ref refs ih =>
    have hfound : (ref.bind right.holder?).filter (!·.exclusive) =
        (ref.bind left.holder?).filter (!·.exclusive) := by
      rw [show right.holder? = left.holder? from funext hpairs.holder?]
    rw [gather, gather, hfound]
    split
    · exact ⟨hpairs, rfl⟩
    · rename_i holder _
      obtain ⟨hrest, hsame⟩ := ih (hpairs.acquire thread holder.unit)
      refine ⟨hrest, ?_⟩
      simp only [hsame]

theorem agree_alloc (hpairs : bond.Pairs left right) (object : Option String)
    (value : Option Payload) {mutability : Option Mutability} (refs : List (Option String))
    {script : List Operation}
    (hmutability : (bond.full || mutability != some .permanent) = true)
    (hscript : suitsAll bond.full bond.hidden script = true) :
    Agree bond bond.Suited left right (startAlloc thread object value mutability refs script)
      (startAlloc thread object value mutability refs script) := by
  refine (checks_field object).agree fun name _ => ?_
  cases value with
  | none => exact agree_throw .badValue
  | some payload =>
    refine (checks_field mutability).agree fun mutability hfield => agree_get ?_
    obtain ⟨rfl, -⟩ := run_field.mp hfield
    rw [hpairs.findObject?]
    refine (checks_require _ _).agree fun _ _ => agree_get ?_
    rw [hpairs.holder?]
    refine (checks_require _ _).agree fun _ _ => agree_get ?_
    obtain ⟨hgathered, hunits⟩ := gather_pairs thread hpairs refs
    generalize gather thread refs left = gathered at hgathered hunits
    generalize gather thread refs right = others at hgathered hunits
    obtain ⟨next, units, complete⟩ := gathered
    obtain ⟨twin, rest⟩ := others
    obtain rfl : rest = (units, complete) := hunits
    cases complete with
    | false => exact agree_set (agree_pure hgathered rfl)
    | true =>
      have hmake : bond.full = true ∨ mutability ≠ .permanent := by simpa using hmutability
      rcases bond.make mutability payload hmake with
        ⟨hleft, hright⟩ | ⟨body, other, hleft, hright, hbodies⟩
      · simp only [hleft, hright]
        exact agree_set (agree_pure hgathered rfl)
      · simp only [hleft, hright]
        rw [show (twin.addObject { name, body := other, refs := units, script }).2 =
          (next.addObject { name, body, refs := units, script }).2 from hgathered.size]
        have hadded : bond.Pairs (next.addObject { name, body, refs := units, script }).1
            (twin.addObject { name, body := other, refs := units, script }).1 :=
          hgathered.addObject ⟨rfl, hbodies, rfl, rfl, rfl⟩ hscript
        exact agree_set (agree_answer (hadded.addHolder name _) _)

theorem agree_newCell (hpairs : bond.Pairs left right) {cell : Option String}
    (hcell : apart bond.hidden cell = true) (guard : GuardArg) (value : Arg)
    (kind : Option (Option CellKind)) (origin : Option Origin) (source : Option String) :
    Agree bond bond.Suited left right (startNewCell thread cell guard value kind origin source)
      (startNewCell thread cell guard value kind origin source) := by
  refine (checks_newCellName hpairs cell).agree fun name hname =>
    (checks_guardOf guard).agree fun given _ => (checks_arg hpairs value).agree fun value _ =>
      (checks_field kind).agree fun kind _ => ?_
  obtain ⟨rfl, -⟩ := newCellName_run hname
  have hopen := apart_some.mp hcell
  split
  · refine (agree_enforce hpairs given _).bind fun rejected next twin _ hnext => ?_
    split
    · exact agree_answer hnext _
    · exact (agree_acquire hnext _).bind fun _ _ _ _ hlater => agree_addCell hlater hopen _ _ _
  · exact agree_addCell hpairs hopen _ _ _
  · exact agree_addCell hpairs hopen _ _ _
  · exact (agree_acquire hpairs _).bind fun _ _ _ _ hnext => agree_addCell hnext hopen _ _ _
  · exact agree_addCell hpairs hopen _ _ _
  · exact (agree_acquire hpairs _).bind fun _ _ _ _ hnext => agree_addCell hnext hopen _ _ _
  · exact (agree_use hpairs _).bind fun ids next twin _ hnext =>
      (agree_pull hnext source).bind fun moved later other _ hlater =>
        agree_change (agree_pure (hlater.addCell ((bond.same hopen).mpr rfl)) rfl)
  · exact agree_throw .unsupported

/-- The action that a verb stands for does not look at more than the verb does. -/
theorem suits_action {full : Bool} {hidden : Option String} {kind : CellKind}
    {expected new : Option ObjectId} {verb : Verb} {action : Action}
    (haction : action? kind expected new verb = some action)
    (hverb : verb.suits full hidden = true) : action.suits full true = true := by
  cases action with
  | showText layout =>
    cases verb with
    | debug layout => exact (Bool.and_true full).trans hverb
    | _ => simp [action?] at haction
  | _ => rfl

theorem checks_comparand (hpairs : bond.Pairs left right) (kind : CellKind) {verb : Verb}
    {expected : Arg}
    (hcurrent : bond.full = true ∨ ∀ name obj object, verb = .swap ∨ verb = .swapIf →
      expected = .named name → name.startsWith "@" = true →
        left.findObject? (name.drop 1).toString = some obj →
          left.object? obj = some object → object.destroyed = false) :
    Checks left right (comparand kind verb expected) (comparand kind verb expected) := by
  unfold comparand
  split
  · exact checks_pure (none, none)
  · exact (checks_arg hpairs expected).bind fun holder _ => checks_pure _
  · rename_i haddress
    refine (checks_address hpairs (hcurrent.imp_right fun hlive name obj object => ?_)).bind
      fun unit _ => checks_pure _
    apply hlive
    cases verb with
    | swap => exact .inl rfl
    | swapIf => exact .inr rfl
    | _ => simp [comparing] at haddress

omit [Resident β] in
/-- A copy does not get the name of the hidden cell. -/
theorem copyName_apart {full : Bool} {hidden : Option String} {kind : CellKind} {verb : Verb}
    {copy : Option String} {next : World β}
    (hrun : (copyName kind verb).run left = .ok (copy, next))
    (hverb : verb.suits full hidden = true) :
    copy.all (fun name => apart hidden (some name)) = true := by
  unfold copyName at hrun
  split at hrun
  · rename_i given
    have hbind : (newCellName given >>= fun name => pure (some name) :
        Attempt β (Option String)).run left = .ok (copy, next) := hrun
    obtain ⟨named, between, hname, hpure⟩ := run_bind.mp hbind
    obtain ⟨rfl, -⟩ := run_pure.mp hpure
    obtain ⟨rfl, -⟩ := newCellName_run hname
    exact hverb
  · obtain ⟨rfl, -⟩ := run_pure.mp hrun
    rfl

theorem agree_onCell (hpairs : bond.Pairs left right) {cell : Option String} {verb : Verb}
    (new : Arg) {expected : Arg} (target : Option String)
    (hcell : apart bond.hidden cell = true)
    (hverb : verb.suits bond.full bond.hidden = true)
    (hcurrent : bond.full = true ∨ ∀ name obj object, verb = .swap ∨ verb = .swapIf →
      expected = .named name → name.startsWith "@" = true →
        left.findObject? (name.drop 1).toString = some obj →
          left.object? obj = some object → object.destroyed = false) :
    Agree bond bond.Suited left right (startOnCell thread cell verb new expected target)
      (startOnCell thread cell verb new expected target) := by
  refine (checks_cell hpairs hcell).agree fun ⟨name, found⟩ hfound =>
    (checks_require _ _).agree fun _ _ => (checks_arg hpairs new).agree fun new _ =>
      (checks_comparand hpairs found.kind hcurrent).agree fun ⟨holder, expected⟩ _ => ?_
  obtain ⟨rfl, -⟩ := cell_run hfound
  have hcopies : Checks left right (copyName found.kind verb) (copyName found.kind verb) := by
    unfold copyName
    split
    · exact (checks_newCellName hpairs _).bind fun copy _ => checks_pure (some copy)
    · exact checks_pure none
  refine hcopies.agree fun copy hcopy => ?_
  have hapart := copyName_apart hcopy hverb
  split
  · exact agree_answer hpairs _
  · exact agree_throw .malformed
  · exact agree_throw .malformed
  · split
    · exact agree_throw .unsupported
    · rename_i action haction
      exact agree_call hpairs hcell (suits_action haction hverb) hapart found target _

end Operations

end Attempt

namespace Operation

open Attempt

/-- The name behind an address that a content is compared with. -/
def address? : Operation → Option String
  | .onCell _ .swap _ (.named name) _ | .onCell _ .swapIf _ (.named name) _ =>
      if name.startsWith "@" then some (name.drop 1).toString else none
  | _ => none

/-- No address of a destroyed object is asked for. -/
def Current (world : World β) (op : Operation) : Prop :=
  ∀ name ∈ op.address?, ∀ obj ∈ world.findObject? name, ∀ object ∈ world.object? obj,
    object.destroyed = false

instance (world : World β) (op : Operation) : Decidable (op.Current world) :=
  inferInstanceAs (Decidable (∀ name ∈ op.address?, ∀ obj ∈ world.findObject? name,
    ∀ object ∈ world.object? obj, object.destroyed = false))

variable (thread) in
/-- The beginning of an operation in two worlds that go in step. -/
theorem agree_begin {op : Operation} (hpairs : bond.Pairs left right)
    (hsuits : op.suits bond.full bond.hidden = true)
    (hcurrent : bond.full = true ∨ op.Current left) :
    Agree bond bond.Suited left right (begin? thread op) (begin? thread op) := by
  cases op with
  | malformed => exact agree_throw .malformed
  | alloc object value mutability refs script =>
    rw [suits, Bool.and_eq_true] at hsuits
    exact agree_alloc hpairs object value refs hsuits.1 hsuits.2
  | clone source target =>
    exact (checks_handle hpairs source).agree fun holder _ => (checks_field target).agree
      fun target _ => (agree_use hpairs _).bind fun ids _ _ _ hnext =>
        agree_change (agree_pure (hnext.acquire thread holder.unit) rfl)
  | drop source => exact (agree_pull hpairs source).bind fun _ _ _ _ hnext => agree_pure hnext rfl
  | freeze source =>
    exact (checks_handle hpairs source).agree fun holder _ =>
      agree_change (agree_answer (hpairs.freeze holder.unit) .ok)
  | info source =>
    refine (checks_handle hpairs source).agree fun holder _ => agree_get ?_
    rw [hpairs.facts, hpairs.count]
    exact agree_answer hpairs _
  | mutate value source =>
    cases value with
    | none => exact agree_throw .badValue
    | some payload =>
      refine (checks_handle hpairs source).agree fun holder _ => (checks_require _ _).agree
        fun _ _ => ?_
      rw [bond.offer hsuits]
      exact (checks_require _ _).agree fun _ _ =>
        agree_change (agree_pure (hpairs.modifyHolder holder.id _) hsuits)
  | sameObject first second =>
    exact (checks_handle hpairs first).agree fun _ _ => (checks_handle hpairs second).agree
      fun _ _ => agree_answer hpairs _
  | compare first second =>
    refine (checks_handle hpairs first).agree fun first _ => (checks_handle hpairs second).agree
      fun second _ => ?_
    rw [bond.offer hsuits]
    refine (checks_require _ _).agree fun _ _ => agree_get (agree_get ?_)
    rw [hpairs.facts]
    exact agree_answer hpairs _
  | hash source =>
    refine (checks_handle hpairs source).agree fun holder _ => ?_
    rw [bond.offer hsuits]
    refine (checks_require _ _).agree fun _ _ => agree_get ?_
    rw [hpairs.facts]
    exact agree_answer hpairs _
  | identity source =>
    exact (checks_handle hpairs source).agree fun _ _ => agree_answer hpairs _
  | debug source layout =>
    refine (checks_handle hpairs source).agree fun holder _ => (checks_field layout).agree
      fun layout _ => agree_get ?_
    rw [hpairs.shape hsuits]
    exact agree_answer hpairs _
  | display source layout =>
    refine (checks_handle hpairs source).agree fun holder _ => (checks_field layout).agree
      fun known _ => ?_
    rw [bond.offer hsuits]
    refine (checks_require _ _).agree fun _ _ => (checks_field known).agree fun layout _ =>
      agree_get ?_
    rw [hpairs.facts]
    exact agree_answer hpairs _
  | intoRaw raw source =>
    refine (checks_field raw).agree fun raw _ => agree_get ?_
    rw [hpairs.raw?]
    exact (checks_require _ _).agree fun _ _ => (agree_pull hpairs source).bind
      fun unit _ _ _ hnext => agree_change (agree_answer (hnext.addRaw raw unit) .ok)
  | fromRaw target raw =>
    refine (checks_field target).agree fun target _ => (checks_field raw).agree fun raw _ =>
      agree_get ?_
    rw [hpairs.raw?]
    split
    · exact agree_throw .unknownHandle
    · exact agree_change (agree_pure (hpairs.eraseRaw raw) rfl)
  | check source guard =>
    exact (checks_arg hpairs source).agree fun _ _ => (checks_guardOf guard).agree fun _ _ =>
      (agree_consult hpairs _ _).bind fun _ _ _ _ hnext => agree_answer hnext _
  | ensure source guard =>
    refine (checks_arg hpairs source).agree fun _ _ => (checks_guardOf guard).agree fun _ _ =>
      (agree_enforce hpairs _ _).bind fun _ _ _ _ hnext => ?_
    split <;> exact agree_answer hnext _
  | compareErrors first second =>
    refine (checks_handle hpairs first).agree fun _ _ => (checks_handle hpairs second).agree
      fun _ _ => (agree_enforce hpairs _ _).bind fun _ _ _ _ hnext =>
        (agree_enforce hnext _ _).bind fun _ _ _ _ hlater => ?_
    split <;> exact agree_answer hlater _
  | newCell cell guard value kind origin source =>
    exact agree_newCell hpairs hsuits guard value kind origin source
  | dropCell cell =>
    refine (checks_cell hpairs hsuits).agree fun ⟨name, found⟩ hfound =>
      (checks_require _ _).agree fun _ _ => ?_
    obtain ⟨rfl, -⟩ := cell_run hfound
    exact agree_change (agree_pure (hpairs.eraseCell (apart_some.mp hsuits)) rfl)
  | intoInner cell target =>
    refine (checks_cell hpairs hsuits).agree fun ⟨name, found⟩ hfound =>
      (checks_require _ _).agree fun _ _ => (checks_require _ _).agree fun _ _ => ?_
    obtain ⟨rfl, -⟩ := cell_run hfound
    exact agree_change (agree_pure (hpairs.eraseCell (apart_some.mp hsuits)) rfl)
  | freezeCell cell =>
    refine (checks_cell hpairs hsuits).agree fun ⟨name, found⟩ hfound =>
      (checks_require _ _).agree fun _ _ => (checks_require _ _).agree fun _ _ => ?_
    obtain ⟨rfl, -⟩ := cell_run hfound
    exact agree_call hpairs hsuits rfl rfl found none _
  | onCell cell verb new expected target =>
    rw [suits, Bool.and_eq_true] at hsuits
    refine agree_onCell hpairs new target hsuits.1 hsuits.2 (hcurrent.imp_right fun hlive => ?_)
    rintro name obj object hverb rfl haddress hobj hobject
    refine hlive (name.drop 1).toString ?_ obj hobj object hobject
    rcases hverb with rfl | rfl
    · exact if_pos haddress
    · exact if_pos haddress
  | rounds count body =>
    refine (checks_field count).agree fun count _ => (checks_field body).agree fun ops hbody => ?_
    obtain ⟨rfl, -⟩ := run_field.mp hbody
    split
    · exact agree_answer hpairs .null
    · refine agree_pure hpairs ?_
      rw [Bond.Suited, Frame.suits, Bool.and_self]
      exact hsuits
  | race | stress =>
    rw [suits] at hsuits
    cases hsuits

variable (thread) in
/-- An operation that starts in two worlds that go in step puts the same on the agenda. -/
theorem start_pairs {op : Operation} (hpairs : bond.Pairs left right)
    (hsuits : op.suits bond.full bond.hidden = true)
    (hcurrent : bond.full = true ∨ op.Current left) :
    bond.Pairs (op.start thread left).1 (op.start thread right).1 ∧
      (op.start thread right).2 = (op.start thread left).2 ∧
        bond.Suited (op.start thread left).2 := by
  unfold start
  rcases agree_begin thread hpairs hsuits hcurrent with
    ⟨fault, hleft, hright⟩ | ⟨frame, next, twin, hleft, hright, hnext, hframe⟩
  · rw [hleft, hright]
    exact ⟨hpairs, rfl, rfl⟩
  · rw [hleft, hright]
    exact ⟨hnext, rfl, hframe⟩

end Operation

end SharedCell
