import Mathlib
import SharedCell.Proofs.Crew.Exchange
import SharedCell.Proofs.Crew.Teardown
import SharedCell.Proofs.Solo.Comparisons

/-!
# Comparisons beside other calls

A call that replaces the content if it is what was expected looks at the content once, and whatever
other threads do around that, it has replaced the content if and only if its outcome says so.  A
comparison that yields a unit in any case says so by the object of the unit: it is the expected one
if and only if this very call has replaced it.
-/

namespace SharedCell

variable {β : Type} [Resident β]

/-- Whether an outcome says that the expected content was replaced. -/
def Outcome.Tells (expected : Option ObjectId) : Outcome → Prop
  | .unit owned => owned = expected
  | .flag value | .swapped value _ => value = true
  | _ => False

/-- How a comparison ends that has made its steps from these stages. -/
inductive Action.Compared (kind : CellKind) (action : Action) (expected new : Option ObjectId)
    (record : List Stage) : Outcome → Prop where
  /-- The guard has rejected what was to be stored. -/
  | rejected {obj : ObjectId} (hkind : kind = .atomic) (hnew : new = some obj)
      (hstored : storedIn record = false) (heffects : effectsOf record = [.ask obj, .reject obj]) :
      Compared kind action expected new record (.rejected obj)
  /-- The call has replaced the content that it has found, or has left it alone. -/
  | compared (seen : Option ObjectId) (waits : List Effect)
      (hstored : storedIn record = true ↔ seen = expected)
      (hwaits : Effect.Waits (storedIn record) waits)
      (heffects : effectsOf record = kind.questions new ++ (action.gains seen).map .acquire ++
        waits ++ (action.returns seen).toList.map .release) :
      Compared kind action expected new record (action.verdict seen)

namespace Action

variable {kind : CellKind} {action : Action} {expected new : Option ObjectId}
  {record : List Stage} {outcome : Outcome}

theorem tells_verdict (hcomparison : action.comparison? = some (expected, new))
    (seen : Option ObjectId) : (action.verdict seen).Tells expected ↔ seen = expected := by
  cases action <;> cases hcomparison <;> simp [verdict, Outcome.Tells]

/-- A caller can tell from what it gets whether its call has replaced the content. -/
theorem Compared.tells (hcompared : action.Compared kind expected new record outcome)
    (hcomparison : action.comparison? = some (expected, new)) :
    outcome.Tells expected ↔ storedIn record = true := by
  cases hcompared with
  | rejected hkind hnew hstored => simp [Outcome.Tells, hstored]
  | compared seen waits hstored => rw [tells_verdict hcomparison, hstored]

theorem Exchanged.compared (hcomparison : action.comparison? = some (expected, new))
    (hexchanged : action.Exchanged kind (some expected) new action.observes record outcome) :
    action.Compared kind expected new record outcome := by
  cases hexchanged with
  | rejected hkind hnew hstored heffects => exact .rejected hkind hnew hstored heffects
  | settled seen waits hstored hwaits heffects =>
    obtain ⟨hstores, hgains, hsettled⟩ := settle_comparison hcomparison seen
    rw [hstores] at hstored
    rw [hgains, hsettled] at heffects
    rw [hsettled]
    refine .compared seen.content waits ?_ hwaits heffects
    rw [hstored, stores_isSome hcomparison]

end Action

namespace Crew

/-- What the conditional replacements have in common, and what callers can tell from them. -/
structure Unambiguous (crew : Crew β) : Prop where
  /-- Whatever all threads do from the first step of a call on, the call is in progress or has ended
  as comparisons do, and its outcome tells whether it has replaced the content. -/
  calls : ∀ thread call below cell expected new,
    crew.agendas[thread]? = some (.call call :: below) →
    crew.world.cell? call.cell = some cell → call.stage = call.action.opening cell.kind →
    call.action.comparison? = some (expected, new) →
    crew.EndsAs (fun record outcome =>
      call.action.Compared cell.kind expected new record outcome ∧
        (outcome.Tells expected ↔ storedIn record = true)) thread call below
  /-- The two of a slot, which compare addresses, those of destroyed objects included. -/
  slots : crew.Ended → ∀ name cell new expected target fresh wanted,
    crew.world.cell? name = some cell → cell.kind = .slot →
    crew.world.meaning? new = some fresh →
    (Attempt.address expected : Attempt β (Option ObjectId)).run crew.world =
      .ok (wanted, crew.world) →
    Operation.Swapping crew.world name new expected target cell.slot.content wanted fresh
  /-- The two of other cells, which compare with the object of a handle. -/
  cells : crew.Ended → ∀ name cell new expected target fresh wanted,
    crew.world.cell? name = some cell → cell.kind ≠ .slot →
    crew.world.meaning? new = some fresh → crew.world.meaning? expected = some wanted →
    Operation.Comparing crew.world name new expected target cell.slot.content wanted fresh
      cell.kind cell.guard

theorem Sound.unambiguous [Lawful β] [Reticent β] {crew : Crew β} (hsound : crew.Sound) :
    crew.Unambiguous where
  calls thread call below cell expected new hagenda hcell hopening hcomparison := by
    have hexchange := Action.exchange_of_comparison hcomparison
    refine (hsound.exchanged hagenda hcell hopening hexchange).mono fun record outcome hended => ?_
    have hcompared := hended.compared hcomparison
    exact ⟨hcompared, hcompared.tells hcomparison⟩
  slots hended name cell new expected target fresh wanted hcell hkind hnew hwanted := by
    have hworld := hsound.world
    rw [hended.stakes] at hworld
    exact Operation.swapping hworld hcell hkind hnew hwanted
  cells hended name cell new expected target fresh wanted hcell hkind hnew hwanted := by
    have hworld := hsound.world
    rw [hended.stakes] at hworld
    exact Operation.comparing_cell hworld hcell hkind hnew hwanted

/-- However threads that perform ordinary operations interleave, the conditional replacements agree,
and callers can tell from what they get whether it was their call that has replaced the content. -/
theorem run_unambiguous [Lawful β] [Reticent β] {programs : List (List Operation)}
    (hordinary : ∀ ops ∈ programs, Operation.ordinaryAll ops = true) (schedule : List ℕ) :
    ((start programs : Crew β).run schedule).Unambiguous :=
  ((start_sound hordinary).run schedule).unambiguous

/-- While the first thread is about to compare, the second one empties the cell. -/
def contest : List (List Operation) :=
  [[.alloc (some "a") (some (.int 1)) (some .frozen) [] [],
    .alloc (some "b") (some (.int 2)) (some .frozen) [] [],
    .newCell (some "c") .absent (.named "a") (some (some .atomic)) (some .value) none,
    .onCell (some "c") .compareAndSwap (.named "b") (.named "a") (some "x")],
   [.onCell (some "c") .set .empty .empty none]]

/-- The second thread goes first from the moment on that both calls have begun. -/
def outrun : List ℕ :=
  List.replicate 7 0 ++ List.replicate 16 1 ++ List.replicate 12 0

theorem run_unambiguous_contest : (∀ ops ∈ contest, Operation.ordinaryAll ops = true) ∧
    ((((start contest : Crew Flagged).run (outrun.take 7)).callAt? 0 1).map (·.stage)) =
      some (.asking 1 (.exchange (some (some 0)) (some 1) true)) ∧
    ((start contest : Crew Flagged).run outrun).Ended ∧
      ((start contest : Crew Flagged).run (outrun.take 7)).Unambiguous ∧
        ((start contest : Crew Flagged).run outrun).Unambiguous :=
  ⟨by decide, by decide +kernel, by decide +kernel, run_unambiguous (by decide) (outrun.take 7),
    run_unambiguous (by decide) outrun⟩

end Crew

end SharedCell
