import Mathlib
import SharedCell.Proofs.Solo.CallEffects
import SharedCell.Proofs.Solo.Freezing

/-!
# The conduct of a call

What a call does from its first step to its outcome if nobody is in the middle of a call on its
cell: it asks its guard, acquires units, stores, and gives back a unit that nobody asked for, in
this order.  All of it is fixed by what the call finds.
-/

namespace SharedCell

open Text

/-- What a call does, and what it ends with. -/
structure Conduct where
  /-- The questions to guards, the reports and the acquisitions, in turn. -/
  quiet : List Effect := []
  /-- What the call stores, if anything. -/
  stored : Option (Option ObjectId) := none
  /-- The unit that the call gives back last. -/
  spare : Option ObjectId := none
  outcome : Outcome

def Conduct.effects (conduct : Conduct) : List Effect :=
  conduct.quiet ++ conduct.spare.toList.map .release

namespace Stage

/-- What remains of the conduct of a call that the slot is done with. -/
def remainder (kind : CellKind) (guard : Guard) (action : Action) (facts : ObjectId → Facts)
    (shape : Layout → ObjectId → Shape) : Stage → Conduct
  | .rejecting new => { quiet := [.reject new], outcome := .rejected new }
  | .writing unit version =>
      match action with
      | .showText layout =>
          let written := cellShape kind layout (some (shape layout unit)) version
          { spare := unit, outcome := .text (written.render layout.pretty) }
      | _ => { spare := unit, outcome := .done }
  | .vetting unit =>
      if guard.accepts (facts unit) then
        { quiet := [.ask unit], spare := unit, outcome := .done }
      else
        { quiet := [.ask unit, .reject unit], spare := unit, outcome := .rejected unit }
  | .refusing unit => { quiet := [.reject unit], spare := unit, outcome := .rejected unit }
  | .releasing unit outcome => { spare := unit, outcome }
  | .finished outcome => { outcome }
  | .asking .. | .calling _ => { outcome := .done }

end Stage

namespace Action

/-- The conduct of a call on the slot, and of what comes after it. -/
def handling (kind : CellKind) (guard : Guard) (facts : ObjectId → Facts)
    (shape : Layout → ObjectId → Shape) (register : Register) (action : Action) : Conduct :=
  let errand := action.errand kind
  let (result, stored) := errand.settle register
  let rest := (Stage.received kind result action).remainder kind guard action facts shape
  { rest with quiet := (errand.acquired register).map .acquire ++ rest.quiet, stored }

/-- The conduct of a call that finds a register.  What an atomic cell is to store is rejected before
anything else happens. -/
def conduct (kind : CellKind) (guard : Guard) (facts : ObjectId → Facts)
    (shape : Layout → ObjectId → Shape) (register : Register) (action : Action) : Conduct :=
  let handling := action.handling kind guard facts shape register
  match kind, action.new? with
  | .atomic, some new =>
      if guard.accepts (facts new) then { handling with quiet := .ask new :: handling.quiet }
      else { quiet := [.ask new, .reject new], outcome := .rejected new }
  | _, _ => handling

variable {guard : Guard} {facts : ObjectId → Facts} {shape : Layout → ObjectId → Shape}
  {register : Register} {action : Action}

theorem conduct_of_new {new : ObjectId} (hnew : action.new? = some new) :
    action.conduct .atomic guard facts shape register =
      let handling := action.handling .atomic guard facts shape register
      if guard.accepts (facts new) then { handling with quiet := .ask new :: handling.quiet }
      else { quiet := [.ask new, .reject new], outcome := .rejected new } := by
  simp only [conduct, hnew]

theorem conduct_of_plain {kind : CellKind}
    (hplain : ∀ new, kind = .atomic → action.new? ≠ some new) :
    action.conduct kind guard facts shape register =
      action.handling kind guard facts shape register := by
  unfold conduct
  dsimp only
  split
  · rename_i new hnew
    exact absurd hnew (hplain new rfl)
  · rfl

end Action

variable {β : Type} [Resident β] {world next : World β} {reply : Reply}

namespace World

/-- The world after effects that destroy nothing. -/
def undergo (world : World β) (guard : Guard) (effects : List Effect) : World β :=
  effects.foldl (fun world effect => (Call.apply world 0 guard effect).1) world

theorem undergo_append (world : World β) (guard : Guard) (first second : List Effect) :
    world.undergo guard (first ++ second) = (world.undergo guard first).undergo guard second :=
  List.foldl_append

/-- An effect does not depend on the tables. -/
theorem apply_tables (world : World β) (guard : Guard) (effect : Effect) (holders : List Holder)
    (cells : List (String × Cell)) :
    (Call.apply { world with holders, cells } 0 guard effect).1 =
      { (Call.apply world 0 guard effect).1 with holders, cells } := by
  have htrace : ∀ event, ({ world with holders, cells } : World β).trace 0 event =
      { world.trace 0 event with holders, cells } := by
    intro event
    rw [trace, trace]
    dsimp only
    split <;> rfl
  cases effect with
  | acquire obj => rfl
  | release obj =>
    have hlast : ({ world with holders, cells } : World β).isLast obj = world.isLast obj := rfl
    simp only [Call.apply, letGo, release, hlast]
    cases world.isLast obj <;> rfl
  | ask obj =>
    simp only [Call.apply, ask, htrace]
    split <;> rfl
  | reject | retry | wait => exact htrace _

theorem undergo_tables (world : World β) (guard : Guard) (effects : List Effect)
    (holders : List Holder) (cells : List (String × Cell)) :
    ({ world with holders, cells } : World β).undergo guard effects =
      { world.undergo guard effects with holders, cells } := by
  induction effects generalizing world with
  | nil => rfl
  | cons effect effects ih =>
    rw [undergo, List.foldl_cons, apply_tables]
    exact ih _

theorem holders_undergo (world : World β) (guard : Guard) (effects : List Effect) :
    (world.undergo guard effects).holders = world.holders := by
  have htables := world.undergo_tables guard effects world.holders world.cells
  exact (congrArg World.holders htables :)

theorem cells_undergo (world : World β) (guard : Guard) (effects : List Effect) :
    (world.undergo guard effects).cells = world.cells := by
  have htables := world.undergo_tables guard effects world.holders world.cells
  exact (congrArg World.cells htables :)

theorem cell?_undergo (world : World β) (guard : Guard) (effects : List Effect) (name : String) :
    (world.undergo guard effects).cell? name = world.cell? name := by
  rw [cell?, cells_undergo, cell?]

theorem undergo_modifyCell (world : World β) (guard : Guard) (effects : List Effect) (name : String)
    (change : Cell → Cell) : (world.modifyCell name change).undergo guard effects =
      (world.undergo guard effects).modifyCell name change := by
  refine (world.undergo_tables guard effects world.holders _).trans ?_
  rw [modifyCell, cells_undergo, ← holders_undergo world guard effects]

theorem undergo_acquire (world : World β) (guard : Guard) (units : List ObjectId) :
    world.undergo guard (units.map .acquire) = world.acquireAll 0 units :=
  List.foldl_map

theorem facts_acquireAll [Lawful β] (world : World β) (thread : ℕ) (units : List ObjectId) :
    (world.acquireAll thread units).facts = world.facts := by
  induction units generalizing world with
  | nil => rfl
  | cons unit units ih =>
    exact (ih _).trans (facts_modifyObject fun object => Lawful.facts_acquire object.body)

theorem facts_ask (world : World β) (thread : ℕ) (guard : Guard) (obj : ObjectId) :
    (world.ask thread guard obj).facts = world.facts :=
  (Agrees.ask world thread guard obj).facts

theorem shape_ask (world : World β) (thread : ℕ) (guard : Guard) (obj : ObjectId) :
    (world.ask thread guard obj).shape = world.shape := by
  funext layout other
  rw [shape, object?, (Agrees.ask world thread guard obj).objects]
  rfl

theorem shape_modifyObject {obj : ObjectId} {change : Object β → Object β}
    (hshape : ∀ object layout,
      Resident.shape layout (change object).body = Resident.shape layout object.body) :
    (world.modifyObject obj change).shape = world.shape := by
  funext layout other
  simp only [shape, object?, Books.getElem?_modifyObject]
  by_cases hsame : obj = other
  · subst hsame
    cases world.objects[obj]? <;> simp [hshape]
  · simp [hsame]

theorem shape_acquireAll [Reticent β] (world : World β) (thread : ℕ) (units : List ObjectId) :
    (world.acquireAll thread units).shape = world.shape := by
  induction units generalizing world with
  | nil => rfl
  | cons unit units ih =>
    exact (ih _).trans
      (shape_modifyObject fun object layout => Reticent.shape_acquire layout object.body)

end World

namespace Solo

theorem clears_nil : Clears world [] next ↔ next = world := by
  constructor
  · intro hclears
    cases hclears with
    | nil => rfl
    | step hstep => cases hstep
  · rintro rfl
    exact .nil _

variable {cell : Cell} {effects : List Effect}

/-- How a call goes on to its outcome. -/
def Concluding (world : World β) (call : Call) (guard : Guard) (conduct : Conduct)
    (effects : List Effect) (next : World β) (reply : Reply) : Prop :=
  effects = conduct.effects ∧
    let last := (world.undergo guard conduct.quiet).letGo? 0 conduct.spare
    ∃ between, Clears last.1 last.2 between ∧
      Ends (between, [.call { call with stage := .finished conduct.outcome }]) next reply

/-- What is done first. -/
theorem concluding_append (world : World β) (call : Call) (guard : Guard) (quiet : List Effect)
    (rest : Conduct) :
    (∃ more, effects = quiet ++ more ∧
      Concluding (world.undergo guard quiet) call guard rest more next reply) ↔
      Concluding world call guard { rest with quiet := quiet ++ rest.quiet } effects next reply := by
  simp only [Concluding, World.undergo_append, Conduct.effects, List.append_assoc]
  constructor
  · rintro ⟨_, rfl, rfl, hends⟩
    exact ⟨rfl, hends⟩
  · rintro ⟨rfl, hends⟩
    exact ⟨_, rfl, rfl, hends⟩

theorem concluding_outcome (call : Call) (guard : Guard) (outcome : Outcome) :
    Concluding world call guard { outcome } effects next reply ↔
      effects = [] ∧ Ends (world, [.call { call with stage := .finished outcome }]) next reply := by
  simp [Concluding, Conduct.effects, World.undergo, World.letGo?, clears_nil]

section Past

variable (call : Call) (hnames : (world.cells.map Prod.fst).Nodup)
  (hcell : world.cell? call.cell = some cell)

include hnames hcell

/-- A step that does not touch the slot. -/
theorem next_past {stage : Stage} {effect : Option Effect}
    (hstep : call.stage.step cell.kind cell.guard call.action world.facts world.shape cell.slot =
      some (cell.slot, stage, effect)) :
    Solo.next (world, [.call call]) = some ((Call.affect world 0 cell.guard effect).1,
      (Call.affect world 0 cell.guard effect).2 ++ [.call { call with stage }]) := by
  have hself : world.modifyCell call.cell ({ · with slot := cell.slot }) = world :=
    World.modifyCell_self hnames hcell rfl
  have hnext := @next_call β _ world call [] cell cell.slot stage effect hcell hstep
  rwa [hself] at hnext

/-- A unit is given back, with all that this leads to. -/
theorem does_releasing {unit : ObjectId} {outcome : Outcome}
    (hstage : call.stage = .releasing unit outcome) (effects : List Effect) :
    Does (world, [.call call]) effects next reply ↔
      Concluding world call cell.guard { spare := unit, outcome } effects next reply := by
  have hstep : call.stage.step cell.kind cell.guard call.action world.facts world.shape cell.slot =
      some (cell.slot, .finished outcome, some (.release unit)) := by
    rw [hstage, Stage.step]
  let ended : Call := { call with stage := .finished outcome }
  have hfinished (between : World β) (effects : List Effect) :
      Does (between, [.call ended]) effects next reply ↔
        effects = [] ∧ Ends (between, [.call ended]) next reply := does_finished ended rfl
  rw [does_step (next_past call hnames hcell hstep), ownEffect?_call call hcell hstep]
  simp only [does_above (Frame.inert_call _)]
  constructor
  · rintro ⟨_, rfl, between, hclears, hdoes⟩
    obtain ⟨rfl, hends⟩ := (hfinished _ _).mp hdoes
    exact ⟨rfl, between, hclears, hends⟩
  · rintro ⟨rfl, between, hclears, hends⟩
    exact ⟨[], rfl, between, hclears, (hfinished _ _).mpr ⟨rfl, hends⟩⟩

/-- A step that has one effect, which destroys nothing. -/
theorem does_one {start : World β} {stage : Stage} {effect : Effect} (rest : Conduct)
    (hstep : call.stage.step cell.kind cell.guard call.action world.facts world.shape cell.slot =
      some (cell.slot, stage, some effect))
    (hopens : (Call.apply world 0 cell.guard effect).2 = [])
    (hrest : ∀ more,
      Does (world.undergo cell.guard [effect], [.call { call with stage }]) more next reply ↔
        Concluding (start.undergo cell.guard [effect]) call cell.guard rest more next reply) :
    Does (world, [.call call]) effects next reply ↔ Concluding start call cell.guard
      { rest with quiet := effect :: rest.quiet } effects next reply := by
  have hnext := next_past call hnames hcell hstep
  rw [show (Call.affect world 0 cell.guard (some effect)).2 = [] from hopens] at hnext
  rw [does_step hnext, ownEffect?_call call hcell hstep]
  refine Iff.trans ?_ (concluding_append start call cell.guard [effect] rest)
  exact exists_congr fun more => and_congr_right fun _ => hrest more

/-- The rejection of the new content ends the call. -/
theorem does_rejecting {new : ObjectId} (hstage : call.stage = .rejecting new)
    (effects : List Effect) :
    Does (world, [.call call]) effects next reply ↔ Concluding world call cell.guard
      { quiet := [.reject new], outcome := .rejected new } effects next reply := by
  have hstep : call.stage.step cell.kind cell.guard call.action world.facts world.shape cell.slot =
      some (cell.slot, .finished (.rejected new), some (.reject new)) := by
    rw [hstage, Stage.step]
  let ended : Call := { call with stage := .finished (.rejected new) }
  exact does_one call hnames hcell { outcome := .rejected new } hstep rfl fun more =>
    (does_finished ended rfl).trans (concluding_outcome call cell.guard _).symm

/-- What an atomic cell is to store is rejected before anything else happens. -/
theorem does_refused {new : ObjectId} {errand : Errand} (hstage : call.stage = .asking new errand)
    (hrefuses : cell.guard.accepts (world.facts new) = false) (effects : List Effect) :
    Does (world, [.call call]) effects next reply ↔ Concluding world call cell.guard
      { quiet := [.ask new, .reject new], outcome := .rejected new } effects next reply := by
  have hstep : call.stage.step cell.kind cell.guard call.action world.facts world.shape cell.slot =
      some (cell.slot, .rejecting new, some (.ask new)) := by
    rw [hstage, Stage.step, if_neg (by simp [hrefuses])]
  let refusing : Call := { call with stage := .rejecting new }
  have hasked : (world.undergo cell.guard [.ask new]).cell? refusing.cell = some cell :=
    (world.cell?_undergo _ _ _).trans hcell
  exact does_one call hnames hcell { quiet := [.reject new], outcome := .rejected new } hstep rfl
    (does_rejecting refusing (by rwa [World.cells_undergo]) hasked rfl)

/-- The rejection of a unit that the call has is reported, and the unit is given back. -/
theorem does_refusing {unit : ObjectId} (hstage : call.stage = .refusing unit)
    (effects : List Effect) :
    Does (world, [.call call]) effects next reply ↔ Concluding world call cell.guard
      { quiet := [.reject unit], spare := unit, outcome := .rejected unit } effects next reply := by
  have hstep : call.stage.step cell.kind cell.guard call.action world.facts world.shape cell.slot =
      some (cell.slot, .releasing unit (.rejected unit), some (.reject unit)) := by
    rw [hstage, Stage.step]
  let giving : Call := { call with stage := .releasing unit (.rejected unit) }
  have hnext : (world.undergo cell.guard [.reject unit]).cell? giving.cell = some cell :=
    (world.cell?_undergo _ _ _).trans hcell
  exact does_one call hnames hcell { spare := unit, outcome := .rejected unit } hstep rfl
    (does_releasing giving (by rwa [World.cells_undergo]) hnext rfl)

/-- The guard is asked about a unit that the call has, and the unit is given back. -/
theorem does_vetting {unit : ObjectId} (hstage : call.stage = .vetting unit) :
    Does (world, [.call call]) effects next reply ↔ Concluding world call cell.guard
      (call.stage.remainder cell.kind cell.guard call.action world.facts world.shape) effects
        next reply := by
  let giving : Call := { call with stage := .releasing unit .done }
  let refusing : Call := { call with stage := .refusing unit }
  have hasked : (world.undergo cell.guard [.ask unit]).cell? call.cell = some cell :=
    (world.cell?_undergo _ _ _).trans hcell
  have haskedNames : ((world.undergo cell.guard [.ask unit]).cells.map Prod.fst).Nodup := by
    rwa [World.cells_undergo]
  rw [hstage, Stage.remainder]
  split
  · rename_i haccepts
    have hstep : call.stage.step cell.kind cell.guard call.action world.facts world.shape
        cell.slot = some (cell.slot, .releasing unit .done, some (.ask unit)) := by
      rw [hstage, Stage.step, if_pos haccepts]
    exact does_one call hnames hcell { spare := unit, outcome := .done } hstep rfl
      (does_releasing giving haskedNames hasked rfl)
  · rename_i hrefuses
    have hstep : call.stage.step cell.kind cell.guard call.action world.facts world.shape
        cell.slot = some (cell.slot, .refusing unit, some (.ask unit)) := by
      rw [hstage, Stage.step, if_neg hrefuses]
    exact does_one call hnames hcell
      { quiet := [.reject unit], spare := unit, outcome := .rejected unit } hstep rfl
      (does_refusing refusing haskedNames hasked rfl)

/-- The text of the content is written, and the unit on the content is given back. -/
theorem does_writing {unit : ObjectId} {version : ℕ} (hstage : call.stage = .writing unit version) :
    Does (world, [.call call]) effects next reply ↔ Concluding world call cell.guard
      (call.stage.remainder cell.kind cell.guard call.action world.facts world.shape) effects
        next reply := by
  obtain ⟨outcome, hstep, hremainder⟩ : ∃ outcome,
      call.stage.step cell.kind cell.guard call.action world.facts world.shape cell.slot =
        some (cell.slot, .releasing unit outcome, none) ∧
      call.stage.remainder cell.kind cell.guard call.action world.facts world.shape =
        { spare := unit, outcome } := by
    rw [hstage]
    cases call.action <;> exact ⟨_, rfl, rfl⟩
  let giving : Call := { call with stage := .releasing unit outcome }
  have hnext : Solo.next (world, [.call call]) = some (world, [.call giving]) :=
    next_past call hnames hcell hstep
  rw [does_quiet hnext (ownEffect?_call call hcell hstep), hremainder]
  exact does_releasing giving hnames hcell rfl effects

/-- Once the slot is done with it, a call goes on as what remains of its conduct says. -/
theorem does_remainder (hpast : call.stage.Past) (effects : List Effect) (next : World β)
    (reply : Reply) :
    Does (world, [.call call]) effects next reply ↔
      Concluding world call cell.guard
        (call.stage.remainder cell.kind cell.guard call.action world.facts world.shape) effects
        next reply := by
  cases hstage : call.stage with
  | asking new errand => rw [hstage] at hpast; exact hpast.elim
  | calling phase => rw [hstage] at hpast; exact hpast.elim
  | rejecting new => exact does_rejecting call hnames hcell hstage effects
  | writing unit version => exact hstage ▸ does_writing call hnames hcell hstage
  | vetting unit => exact hstage ▸ does_vetting call hnames hcell hstage
  | refusing unit => exact does_refusing call hnames hcell hstage effects
  | releasing unit outcome => exact does_releasing call hnames hcell hstage effects
  | finished outcome =>
    rw [does_finished call hstage, Stage.remainder, concluding_outcome, ← hstage]

end Past

/-! ## From the first step on -/

section Plain

variable [Lawful β] [Reticent β] (call : Call) (hnames : (world.cells.map Prod.fst).Nodup)
  (hcell : world.cell? call.cell = some cell) (hplain : cell.slot = cell.slot.register.slot)

include hnames hcell hplain

/-- A call that is about to take the lock. -/
theorem does_locking (hstage : call.stage = .calling (.locking (call.action.errand cell.kind)))
    (effects : List Effect) :
    let handling :=
      call.action.handling cell.kind cell.guard world.facts world.shape cell.slot.register
    Does (world, [.call call]) effects next reply ↔
      Concluding (world.modifyCell call.cell
        ({ · with slot := (cell.slot.register.after handling.stored).slot })) call cell.guard
        handling effects next reply := by
  let errand := call.action.errand cell.kind
  let register := cell.slot.register
  let after := (register.after (errand.settle register).2).slot
  let acquisitions : List Effect := (errand.acquired register).map .acquire
  let received : Call :=
    { call with stage := .received cell.kind (errand.settle register).1 call.action }
  let written := world.modifyCell call.cell ({ · with slot := after })
  let leapt := (world.acquireAll 0 (errand.acquired register)).modifyCell call.cell
    ({ · with slot := after })
  have hleads := Phase.leads_locking (Errand.fresh_errand cell.kind call.action) register
  have hleapt : leapt.cell? received.cell = some { cell with slot := after } := by
    apply World.cell?_modifyCell
    rw [World.cell?, World.cells_acquireAll]
    exact hcell
  have hleaptNames : (leapt.cells.map Prod.fst).Nodup := by
    rw [World.names_modifyCell, World.cells_acquireAll]
    exact hnames
  have hundergone : written.undergo cell.guard acquisitions = leapt := by
    rw [World.undergo_modifyCell, World.undergo_acquire]
  have hfacts : leapt.facts = world.facts := World.facts_acquireAll world 0 _
  have hshape : leapt.shape = world.shape := World.shape_acquireAll world 0 _
  have hrest := does_remainder received hleaptNames hleapt (Stage.past_received _ _ _)
  rw [hfacts, hshape] at hrest
  have hcalls : Does (world, [.call call]) effects next reply ↔
      ∃ more, effects = acquisitions ++ more ∧ Does (leapt, [.call received]) more next reply := by
    have hcall : { call with stage := .calling (.locking errand) } = call := by rw [← hstage]
    have hdoes := does_leads call hleads hcell hplain effects next reply
    rwa [hcall] at hdoes
  intro handling
  refine hcalls.trans (Iff.trans ?_ (concluding_append written call cell.guard acquisitions
    (received.stage.remainder cell.kind cell.guard call.action world.facts world.shape)))
  rw [hundergone]
  exact exists_congr fun more => and_congr_right fun _ => hrest more next reply

/-- What a call does that nobody interferes with is what its conduct says. -/
theorem does_call (hstage : call.stage = call.action.opening cell.kind) :
    let conduct :=
      call.action.conduct cell.kind cell.guard world.facts world.shape cell.slot.register
    Does (world, [.call call]) effects next reply ↔
      Concluding (world.modifyCell call.cell
        ({ · with slot := (cell.slot.register.after conduct.stored).slot })) call cell.guard
        conduct effects next reply := by
  unfold Action.opening at hstage
  split at hstage
  · rename_i new hkind hnew
    rw [hkind, Action.conduct_of_new hnew]
    dsimp only
    split
    · rename_i haccepts
      let locking : Call := { call with stage := .calling (.locking (call.action.errand .atomic)) }
      let asked := world.undergo cell.guard [.ask new]
      have hasked : asked.cell? locking.cell = some cell := (world.cell?_undergo _ _ _).trans hcell
      have haskedNames : (asked.cells.map Prod.fst).Nodup := by rwa [World.cells_undergo]
      have hstep : call.stage.step cell.kind cell.guard call.action world.facts world.shape
          cell.slot = some (cell.slot, locking.stage, some (.ask new)) := by
        rw [hstage, hkind, Stage.step, if_pos haccepts]
      have hlocking := @does_locking β _ asked next reply cell _ _ locking haskedNames hasked hplain
        (by rw [hkind])
      have hfacts : asked.facts = world.facts := World.facts_ask world 0 cell.guard new
      have hshape : asked.shape = world.shape := World.shape_ask world 0 cell.guard new
      rw [hfacts, hshape, hkind] at hlocking
      refine does_one call hnames hcell _ hstep rfl fun more => ?_
      rw [World.undergo_modifyCell]
      exact hlocking more
    · rename_i hrefuses
      have hsame : world.modifyCell call.cell
          ({ · with slot := (cell.slot.register.after none).slot }) = world :=
        World.modifyCell_self hnames hcell (by rw [Register.after, ← hplain])
      rw [hsame]
      exact does_refused call hnames hcell hstage (Bool.eq_false_iff.mpr hrefuses) effects
  · rename_i hother
    rw [Action.conduct_of_plain hother]
    exact does_locking call hnames hcell hplain hstage effects

end Plain

end Solo

end SharedCell
