import Mathlib
import SharedCell.Proofs.Solo.IdleSlots
import SharedCell.Proofs.Solo.Performance

/-!
# Operations that come to the same

To set a cell is to replace its content and to drop what was replaced, to take the content of a
cell is to replace it by nothing, and to drop a cell is to consume it and to drop its content.  This
holds whatever is destroyed on the way, and whatever that leads to.
-/

namespace SharedCell

open Operation

variable {β : Type} [Resident β] {world : World β} {turn : Reply → Reply}

/-- An action that puts something in the place of the content, whatever that is. -/
structure Action.Puts (action : Action) (new : Option ObjectId) : Prop where
  errand : action.errand .atomic = .exchange none new false
  new? : action.new? = new

theorem Action.Puts.opening_none {action : Action} (hputs : action.Puts none) :
    action.opening .atomic = .calling (.locking (.exchange none none false)) := by
  simp [Action.opening, hputs.new?, hputs.errand]

theorem Action.Puts.opening_some {action : Action} {obj : ObjectId}
    (hputs : action.Puts (some obj)) :
    action.opening .atomic = .asking obj (.exchange none (some obj) false) := by
  simp [Action.opening, hputs.new?, hputs.errand]

/-- What is left to reply when the unit of a reply is dropped. -/
def Reply.dropped : Reply → Reply
  | .unit _ => .ok
  | reply => reply

namespace Solo

/-- Two threads end in the same world or not at all, and the reply to the first one can be told from
that to the second one. -/
def Alike (turn : Reply → Reply) (first second : Solo β) : Prop :=
  ∀ next reply, Ends first next reply ↔ ∃ found, Ends second next found ∧ reply = turn found

namespace Alike

variable {first second later : Solo β}

theorem left (halike : Alike turn later second) (hstep : first.next = some later) :
    Alike turn first second :=
  fun next reply => (ends_step hstep).trans (halike next reply)

theorem right (halike : Alike turn first later) (hstep : second.next = some later) :
    Alike turn first second := by
  intro next reply
  simp only [halike next reply, ends_step hstep]

theorem paths {other : Solo β} {inside outside : Solo β → Prop} {count more : ℕ}
    (halike : Alike turn later other) (hfirst : Path Solo.next inside count first later)
    (hsecond : Path Solo.next outside more second other) : Alike turn first second := by
  intro next reply
  simp only [ends_path hfirst, ends_path hsecond, halike next reply]

theorem tidy (turn : Reply → Reply) (world : World β) (chores : List Chore) (told : Reply) :
    Alike turn (world, [.tidy chores (turn told)]) (world, [.tidy chores told]) := by
  intro next reply
  simp only [ends_tidy]
  constructor
  · rintro ⟨htidies, rfl⟩
    exact ⟨told, ⟨htidies, rfl⟩, rfl⟩
  · rintro ⟨found, ⟨htidies, rfl⟩, rfl⟩
    exact ⟨htidies, rfl⟩

/-- The destruction of an object comes first. -/
theorem above {frame other : Frame} (hframe : frame.Inert) (hother : other.Inert)
    (halike : ∀ world : World β, Alike turn (world, [frame]) (world, [other])) (world : World β)
    (above : List Frame) : Alike turn (world, above ++ [frame]) (world, above ++ [other]) := by
  intro next reply
  simp only [ends_above hframe, ends_above hother, halike _ next reply]
  constructor
  · rintro ⟨between, hclears, found, hends, rfl⟩
    exact ⟨found, ⟨between, hclears, hends⟩, rfl⟩
  · rintro ⟨found, ⟨between, hclears, hends⟩, rfl⟩
    exact ⟨between, hclears, found, hends, rfl⟩

end Alike

/-! ## Steps of calls -/

section Steps

variable {call : Call} {cell : Cell} {obj : ObjectId} {errand : Errand} (below : List Frame)

/-- A call hands over its outcome. -/
theorem next_finished {outcome : Outcome} (hstage : call.stage = .finished outcome) :
    Solo.next (world, .call call :: below) =
      some ((call.conclude world outcome).1, (call.conclude world outcome).2 :: below) := by
  simp [Solo.next, Frame.step, Call.step, hstage]

/-- The world after a guard was asked. -/
def asked (world : World β) (name : String) (cell : Cell) (obj : ObjectId) : World β :=
  (world.modifyCell name ({ · with slot := cell.slot })).ask 0 cell.guard obj

omit [Resident β] in
theorem cell?_asked {name : String} (hcell : world.cell? name = some cell) (obj : ObjectId) :
    (asked world name cell obj).cell? name = some cell := by
  rw [World.cell?, asked, World.cells_ask]
  exact World.cell?_modifyCell hcell

theorem next_accepted (hcell : world.cell? call.cell = some cell)
    (hstage : call.stage = .asking obj errand)
    (haccepts : cell.guard.accepts (world.facts obj) = true) :
    Solo.next (world, .call call :: below) = some (asked world call.cell cell obj,
      .call { call with stage := .calling (.locking errand) } :: below) := by
  have hstep : call.stage.step cell.kind cell.guard call.action world.facts world.shape cell.slot =
      some (cell.slot, .calling (.locking errand), some (.ask obj)) := by
    rw [hstage, Stage.step, if_pos haccepts]
  exact next_call hcell hstep

theorem next_refused (hcell : world.cell? call.cell = some cell)
    (hstage : call.stage = .asking obj errand)
    (hrefuses : cell.guard.accepts (world.facts obj) = false) :
    Solo.next (world, .call call :: below) = some (asked world call.cell cell obj,
      .call { call with stage := .rejecting obj } :: below) := by
  have hstep : call.stage.step cell.kind cell.guard call.action world.facts world.shape cell.slot =
      some (cell.slot, .rejecting obj, some (.ask obj)) := by
    rw [hstage, Stage.step, if_neg (by simp [hrefuses])]
  exact next_call hcell hstep

theorem next_rejecting (hcell : world.cell? call.cell = some cell)
    (hstage : call.stage = .rejecting obj) :
    Solo.next (world, .call call :: below) =
      some ((world.modifyCell call.cell ({ · with slot := cell.slot })).trace 0 (.rejected obj),
        .call { call with stage := .finished (.rejected obj) } :: below) := by
  have hstep : call.stage.step cell.kind cell.guard call.action world.facts world.shape cell.slot =
      some (cell.slot, .finished (.rejected obj), some (.reject obj)) := by
    rw [hstage, Stage.step]
  exact next_call hcell hstep

theorem next_releasing {outcome : Outcome} (hcell : world.cell? call.cell = some cell)
    (hstage : call.stage = .releasing obj outcome) :
    Solo.next (world, .call call :: below) =
      some (((world.modifyCell call.cell ({ · with slot := cell.slot })).letGo 0 obj).1,
        ((world.modifyCell call.cell ({ · with slot := cell.slot })).letGo 0 obj).2 ++
          .call { call with stage := .finished outcome } :: below) := by
  have hstep : call.stage.step cell.kind cell.guard call.action world.facts world.shape cell.slot =
      some (cell.slot, .finished outcome, some (.release obj)) := by
    rw [hstage, Stage.step]
  exact next_call hcell hstep

end Steps

/-! ## Exchanges -/

/-- A world in which a cell is as a call on it leaves it at every later step. -/
def Written (world : World β) (name : String) : Prop :=
  ∃ cell, world.cell? name = some cell ∧
    world.modifyCell name ({ · with slot := cell.slot }) = world

theorem written_leap {name : String} {cell : Cell} (hcell : world.cell? name = some cell)
    (register : Register) (errand : Errand) : Written (world.leap name register errand) name :=
  ⟨_, World.cell?_leap hcell register errand, World.modifyCell_slot _ _⟩

/-- A call that puts something in the place of the content of a cell. -/
def exchanging (name : String) (holders : List ℕ) (action : Action) (target : Option String)
    (stage : Stage) : Call :=
  { cell := name, action, stage, target, holders }

section Exchanging

variable {name : String} {holders : List ℕ} {cell : Cell} {first second : Action}
  {target other : Option String} {new : Option ObjectId}

/-- The two calls find the same content and leave the same one. -/
theorem alike_locking (hcell : world.cell? name = some cell) (hkind : cell.kind = .atomic)
    (hplain : cell.slot = cell.slot.register.slot)
    (hreceived : ∀ after : World β, Written after name → ∀ unit,
      let result : Yield := { unit, replaced := true }
      Alike turn
        (after, [.call (exchanging name holders first target (.received .atomic result first))])
        (after, [.call (exchanging name holders second other (.received .atomic result second))])) :
    let stage : Stage := .calling (.locking (.exchange none new false))
    Alike turn (world, [.call (exchanging name holders first target stage)])
      (world, [.call (exchanging name holders second other stage)]) := by
  intro stage
  let errand : Errand := .exchange none new false
  let result : Yield := { unit := cell.slot.content, replaced := true }
  have hpath : ∀ action target, ∃ count, Path Solo.next
      (Amid (exchanging name holders action target stage) []) count
      (world, [.call (exchanging name holders action target stage)])
      (world.leap name cell.slot.register errand,
        [.call (exchanging name holders action target (.received .atomic result action))]) := by
    intro action target
    obtain ⟨count, -, hpath⟩ := @path_of_locking β _ world
      (exchanging name holders action target stage) [] cell errand hcell hplain rfl trivial
    rw [Call.leap, hkind] at hpath
    exact ⟨count, hpath⟩
  obtain ⟨count, hfirst⟩ := hpath first target
  obtain ⟨more, hsecond⟩ := hpath second other
  exact (hreceived _ (written_leap hcell _ _) cell.slot.content).paths hfirst hsecond

/-- The guard is asked about both, and refuses both or none. -/
theorem alike_opening (hcell : world.cell? name = some cell) (hkind : cell.kind = .atomic)
    (hplain : cell.slot = cell.slot.register.slot) (hfirst : first.Puts new)
    (hsecond : second.Puts new)
    (hrejected : ∀ (after : World β) obj, Alike turn
      (after, [.call (exchanging name holders first target (.finished (.rejected obj)))])
      (after, [.call (exchanging name holders second other (.finished (.rejected obj)))]))
    (hreceived : ∀ after : World β, Written after name → ∀ unit,
      let result : Yield := { unit, replaced := true }
      Alike turn
        (after, [.call (exchanging name holders first target (.received .atomic result first))])
        (after, [.call (exchanging name holders second other (.received .atomic result second))])) :
    Alike turn
      (world, [.call (exchanging name holders first target (first.opening .atomic))])
      (world, [.call (exchanging name holders second other (second.opening .atomic))]) := by
  cases new with
  | none =>
    rw [hfirst.opening_none, hsecond.opening_none]
    exact alike_locking hcell hkind hplain hreceived
  | some obj =>
    rw [hfirst.opening_some, hsecond.opening_some]
    have hasked := cell?_asked hcell obj
    cases haccepts : cell.guard.accepts (world.facts obj) with
    | true =>
      have hnext (action : Action) (target : Option String) :=
        @next_accepted β _ world (exchanging name holders action target
          (.asking obj (.exchange none (some obj) false))) cell obj _ [] hcell rfl haccepts
      exact .left (.right (alike_locking hasked hkind hplain hreceived) (hnext second other))
        (hnext first target)
    | false =>
      have hnext (action : Action) (target : Option String) :=
        @next_refused β _ world (exchanging name holders action target
          (.asking obj (.exchange none (some obj) false))) cell obj _ [] hcell rfl haccepts
      have hreports (action : Action) (target : Option String) :=
        @next_rejecting β _ (asked world name cell obj) (exchanging name holders action target
          (.rejecting obj)) cell obj [] hasked rfl
      exact .left (.right (.left (.right (hrejected _ obj) (hreports second other))
        (hreports first target)) (hnext second other)) (hnext first target)

/-- What remains to be done for a call that has nothing to hand out. -/
def ending (name : String) (holders : List ℕ) : List Chore :=
  holders.map .endUse ++ [.leaveCell name]

theorem next_concludes (world : World β) (name : String) (holders : List ℕ)
    (target : Option String) {action : Action} {outcome : Outcome} (hcopy : action ≠ .copy)
    (hfreeze : action ≠ .freeze) :
    Solo.next (world, [.call (exchanging name holders action target (.finished outcome))]) =
      some (world, [.tidy ((outcome.units.flatMap fun unit => delivery target (some unit)) ++
        ending name holders) outcome.reply]) := by
  have hsettle : (exchanging name holders action target (.finished outcome)).settle world outcome =
      (world, outcome.units.flatMap fun unit => delivery target (some unit), outcome.reply) := by
    cases action <;> first | rfl | exact absurd rfl hcopy | exact absurd rfl hfreeze
  rw [next_finished [] rfl, Call.conclude, hsettle, ending, ← List.append_assoc]
  rfl

theorem alike_set_replace (target : Option String) (new : Option ObjectId)
    (hcell : world.cell? name = some cell) (hkind : cell.kind = .atomic)
    (hplain : cell.slot = cell.slot.register.slot) :
    Alike .dropped
      (world, [.call (exchanging name holders (.set new) target
        ((Action.set new).opening .atomic))])
      (world, [.call (exchanging name holders (.replace new) none
        ((Action.replace new).opening .atomic))]) := by
  have hset (world : World β) (outcome : Outcome) :=
    @next_concludes β _ world name holders target (.set new) outcome (by simp) (by simp)
  have hreplace (world : World β) (outcome : Outcome) :=
    @next_concludes β _ world name holders none (.replace new) outcome (by simp) (by simp)
  refine alike_opening hcell hkind hplain ⟨rfl, rfl⟩ ⟨rfl, rfl⟩ ?_ ?_
  · intro after obj
    exact .left (.right (.tidy _ after _ (.fault (.unshareable obj))) (hreplace after _))
      (hset after _)
  · rintro after ⟨found, hfound, hsame⟩ unit result
    cases unit with
    | none => exact .left (.right (.tidy _ after _ (.unit none)) (hreplace after _)) (hset after _)
    | some kept =>
      have hreleases := @next_releasing β _ after (exchanging name holders (.set new) target
        (.releasing kept .done)) found kept [] .done hfound rfl
      rw [show (exchanging name holders (.set new) target (.releasing kept .done)).cell = name
        from rfl, hsame] at hreleases
      have hdrops : Solo.next (after, [.tidy (.release kept :: ending name holders)
          (.unit (some kept))]) = some ((after.letGo 0 kept).1,
            (after.letGo 0 kept).2 ++ [.tidy (ending name holders) (.unit (some kept))]) := rfl
      have hends (world : World β) :
          Alike .dropped
            (world, [.call (exchanging name holders (.set new) target (.finished .done))])
            (world, [.tidy (ending name holders) (.unit (some kept))]) :=
        .left (.tidy _ world _ (.unit (some kept))) (hset world .done)
      have habove := Alike.above (Frame.inert_call _) (Frame.inert_tidy _ _) hends
      exact .left (.right (.right (habove _ _) hdrops) (hreplace after _)) hreleases

theorem alike_take_replace (target : Option String) (hcell : world.cell? name = some cell)
    (hkind : cell.kind = .atomic) (hplain : cell.slot = cell.slot.register.slot) :
    Alike id
      (world, [.call (exchanging name holders .take target (Action.take.opening .atomic))])
      (world, [.call (exchanging name holders (.replace none) target
        ((Action.replace none).opening .atomic))]) := by
  have htake (world : World β) (outcome : Outcome) :=
    @next_concludes β _ world name holders target .take outcome (by simp) (by simp)
  have hreplace (world : World β) (outcome : Outcome) :=
    @next_concludes β _ world name holders target (.replace none) outcome (by simp) (by simp)
  refine alike_opening hcell hkind hplain ⟨rfl, rfl⟩ ⟨rfl, rfl⟩ ?_ ?_
  · exact fun after obj => .left (.right (.tidy _ after _ _) (hreplace after _)) (htake after _)
  · exact fun after _ unit => .left (.right (.tidy _ after _ _) (hreplace after _)) (htake after _)

end Exchanging

end Solo

/-! ## Operations -/

namespace Operation

open Attempt

variable {first second : Operation} {cell : Option String}

/-- Two operations that come to the same if they are begun in a world, so that the reply to the
first one can be told from that to the second one. -/
def Alike (world : World β) (turn : Reply → Reply) (first second : Operation) : Prop :=
  ∀ next reply, first.Performs world next reply ↔
    ∃ found, second.Performs world next found ∧ reply = turn found

theorem alike_of_start (halike : Solo.Alike turn
      ((first.start 0 world).1, [(first.start 0 world).2])
      ((second.start 0 world).1, [(second.start 0 world).2])) :
    Alike world turn first second := by
  intro next reply
  simp only [performs_iff, halike next reply]

/-- The verbs that put something in the place of the content of an atomic cell. -/
inductive Exchanges : Verb → (Option ObjectId → Action) → Prop where
  | set : Exchanges .set .set
  | replace : Exchanges .replace .replace
  | take : Exchanges .take fun _ => .take

/-- What these verbs check, and what they use from then on. -/
def exchanging (cell : Option String) (new : Arg) :
    Attempt β (String × Option ObjectId × List ℕ) := do
  let (name, cell) ← Attempt.cell cell
  require (!cell.bars 0 false) .busy
  let new ← arg new
  let ids ← use [none, new]
  modify (·.useCell name 0 false)
  pure (name, new.map (·.unit), ids)

/-- A cell that can be exchanged and that nobody is in the middle of a call on. -/
def Exchangeable (world : World β) (cell : Option String) : Prop :=
  ∀ name found, cell = some name → world.cell? name = some found →
    found.kind = .atomic ∧ found.slot = found.slot.register.slot

/-- The world in which handles and a cell are in use. -/
def inUse (world : World β) (name : String) (ids : List ℕ) : World β :=
  (ids.foldl (fun world id => world.modifyHolder id fun holder =>
    { holder with users := holder.users + 1 }) world).useCell name 0 false

theorem start_exchange {verb : Verb} {action : Option ObjectId → Action}
    (hverb : Exchanges verb action) (hcell : Exchangeable world cell) (new expected : Arg)
    (target : Option String) :
    (onCell cell verb new expected target).start 0 world =
      match (exchanging cell new).run world with
      | .ok ((name, unit, ids), next) =>
          (next, .call (Solo.exchanging name ids (action unit) target
            ((action unit).opening .atomic)))
      | .error fault => (world, .tidy [] (.fault fault)) := by
  cases cell with
  | none => rfl
  | some name =>
    cases hfound : world.cell? name with
    | none =>
      simp only [start, begin?, startOnCell, exchanging, Attempt.cell, field, StateT.run_bind,
        pure_bind, StateT.run_get, bind_assoc, hfound]
      rfl
    | some found =>
      obtain ⟨hkind, -⟩ := hcell name found rfl hfound
      obtain ⟨kind, guard, slot, users, out, lookers⟩ := found
      obtain rfl : kind = .atomic := hkind
      cases out with
      | true =>
        simp only [start, begin?, startOnCell, exchanging, Attempt.cell, field, StateT.run_bind,
          pure_bind, StateT.run_get, bind_assoc, hfound]
        rfl
      | false =>
        have hstart :
            (startOnCell 0 (some name) verb new expected target : Attempt β Frame).run world =
            ((arg new).run world).bind fun found =>
              let ids := [none, found.1].filterMap (·.map (·.id))
              let action := action (found.1.map (·.unit))
              .ok (.call (Solo.exchanging name ids action target (action.opening .atomic)),
                inUse found.2 name ids) := by
          cases hverb <;>
          · simp only [startOnCell, Attempt.cell, field, StateT.run_bind, pure_bind, StateT.run_get,
              bind_assoc, hfound]
            rfl
        have hexchanging : (exchanging (some name) new : Attempt β _).run world =
            ((arg new).run world).bind fun found =>
              let ids := [none, found.1].filterMap (·.map (·.id))
              .ok ((name, found.1.map (·.unit), ids), inUse found.2 name ids) := by
          simp only [exchanging, Attempt.cell, field, StateT.run_bind, pure_bind, StateT.run_get,
            bind_assoc, hfound]
          rfl
        rw [start, begin?, hstart, hexchanging]
        cases (arg new : Attempt β (Option Holder)).run world <;> rfl

omit [Resident β] in
/-- What is known when the checks have passed. -/
theorem exchanging_run {new : Arg} {name : String} {unit : Option ObjectId} {ids : List ℕ}
    {next : World β} (hcell : Exchangeable world cell)
    (hrun : (exchanging cell new : Attempt β _).run world = .ok ((name, unit, ids), next)) :
    (∃ found, next.cell? name = some found ∧ found.kind = .atomic ∧
      found.slot = found.slot.register.slot) ∧ (new = .empty → unit = none) := by
  obtain ⟨⟨found, present⟩, hfound, hrest⟩ := bind_stays (stays_cell cell) hrun
  obtain ⟨hname, hpresent⟩ := cell_run hfound
  obtain ⟨-, hrest⟩ := bind_require hrest
  obtain ⟨holder, harg, hrest⟩ := bind_stays (stays_arg new) hrest
  obtain ⟨used, after, huse, hrest⟩ := run_bind.mp hrest
  have hmodified := bind_modify huse
  obtain ⟨rfl, rfl⟩ := run_pure.mp hmodified
  obtain ⟨holders, hused, -⟩ := exists_used world ([none, holder].filterMap (·.map (·.id)))
  rw [hused] at hrest
  have hmade := bind_modify hrest
  obtain ⟨heq, rfl⟩ := run_pure.mp hmade
  obtain ⟨rfl, hothers⟩ := Prod.mk.inj heq
  obtain ⟨hunit, -⟩ := Prod.mk.inj hothers
  obtain ⟨hkind, hplain⟩ := hcell _ present hname hpresent
  refine ⟨⟨present.use 0 false, World.cell?_modifyCell hpresent, by rw [Cell.use_kind, hkind],
    by rwa [Cell.use_slot]⟩, ?_⟩
  rintro rfl
  obtain ⟨rfl, -⟩ := run_pure.mp harg
  exact hunit

/-- To set a cell is to replace its content and to drop what was replaced. -/
theorem alike_set (hcell : Exchangeable world cell) (new expected other : Arg)
    (target : Option String) : Alike world .dropped (onCell cell .set new expected target)
      (onCell cell .replace new other none) := by
  apply alike_of_start
  rw [start_exchange .set hcell, start_exchange .replace hcell]
  cases hrun : (exchanging cell new : Attempt β _).run world with
  | error fault => exact .tidy _ world [] (.fault fault)
  | ok result =>
    obtain ⟨⟨name, unit, ids⟩, next⟩ := result
    obtain ⟨⟨found, hfound, hkind, hplain⟩, -⟩ := exchanging_run hcell hrun
    exact Solo.alike_set_replace target unit hfound hkind hplain

/-- To take the content of a cell is to replace it by nothing. -/
theorem alike_take (hcell : Exchangeable world cell) (expected other : Arg)
    (target : Option String) : Alike world id (onCell cell .take .empty expected target)
      (onCell cell .replace .empty other target) := by
  apply alike_of_start
  rw [start_exchange .take hcell, start_exchange .replace hcell]
  cases hrun : (exchanging cell .empty : Attempt β _).run world with
  | error fault => exact .tidy _ world [] (.fault fault)
  | ok result =>
    obtain ⟨⟨name, unit, ids⟩, next⟩ := result
    obtain ⟨⟨found, hfound, hkind, hplain⟩, hnone⟩ := exchanging_run hcell hrun
    obtain rfl := hnone rfl
    exact Solo.alike_take_replace target hfound hkind hplain

/-- What the consumption of a cell checks, and the content that it leaves. -/
def consuming (cell : Option String) : Attempt β (Option ObjectId) := do
  let (name, cell) ← Attempt.cell cell
  require cell.idle .busy
  modify (·.eraseCell name)
  pure cell.slot.content

theorem start_dropCell (cell : Option String) (thread : ℕ) : (dropCell cell).start thread world =
    match (consuming cell).run world with
    | .ok (content, next) => (next, .tidy (delivery none content) .ok)
    | .error fault => (world, .tidy [] (.fault fault)) := by
  cases cell with
  | none => rfl
  | some name =>
    simp only [start, begin?, startDropCell, consuming, Attempt.cell, field, StateT.run_bind,
      pure_bind, StateT.run_get, bind_assoc]
    cases world.cell? name with
    | none => rfl
    | some found =>
      cases hidle : found.idle <;>
      · simp only [StateT.run_pure, pure_bind, hidle]
        rfl

/-- A cell that is not freezable, if it is there. -/
def Consumable (world : World β) (cell : Option String) : Prop :=
  ∀ name found, cell = some name → world.cell? name = some found → found.kind ≠ .freezable

theorem start_intoInner (hcell : Consumable world cell) (target : Option String) (thread : ℕ) :
    (intoInner cell target).start thread world =
      match (consuming cell).run world with
      | .ok (content, next) => (next, .tidy (delivery target content) (.unit content))
      | .error fault => (world, .tidy [] (.fault fault)) := by
  cases cell with
  | none => rfl
  | some name =>
    simp only [start, begin?, startIntoInner, consuming, Attempt.cell, field, StateT.run_bind,
      pure_bind, StateT.run_get, bind_assoc]
    cases hfound : world.cell? name with
    | none => rfl
    | some found =>
      have hkind : (found.kind != .freezable) = true :=
        bne_iff_ne.mpr (hcell name found rfl hfound)
      cases hidle : found.idle <;>
      · simp only [StateT.run_pure, pure_bind, hkind, hidle]
        rfl

/-- To drop a cell is to consume it and to drop its content. -/
theorem alike_dropCell (hcell : Consumable world cell) :
    Alike world .dropped (dropCell cell) (intoInner cell none) := by
  apply alike_of_start
  rw [start_dropCell, start_intoInner hcell]
  cases (consuming cell : Attempt β _).run world with
  | error fault => exact .tidy _ world [] (.fault fault)
  | ok result => exact .tidy _ _ _ (.unit result.1)

end Operation

end SharedCell
