import Mathlib
import SharedCell.Proofs.Solo.Ending
import SharedCell.Proofs.Solo.Offers

/-!
# Units that a call deals in

Which units a call acquires and releases if nobody comes in between, and in which order: a table
with a line for each action.  What a call has dealt in so far and what it still has to deal in make
up its line at every step, and each step brings the call nearer to its end.
-/

namespace SharedCell

open Text

/-! ## The table -/

namespace Effect

/-- What it takes to have one more unit on a reference. -/
def acquires (reference : Option ObjectId) : List Effect :=
  reference.toList.map .acquire

/-- What it takes to give up a unit on a reference. -/
def releases (reference : Option ObjectId) : List Effect :=
  reference.toList.map .release

end Effect

namespace Action

open Effect

/-- The units that a call acquires and releases, in turn, if it finds a content and nobody comes in
between. -/
def dealings (content : Option ObjectId) : Action → List Effect
  | .get | .copy | .snapshot => acquires content
  | .set new => acquires new ++ releases content
  | .replace new | .assign new => acquires new
  | .take | .version => []
  | .compareAndSwap expected new | .swap expected new =>
      if content = expected then acquires new else acquires content
  | .compareAndSet expected new =>
      if content = expected then acquires new ++ releases content else []
  | .swapIf expected new => if content = expected then acquires new else []
  | .showText _ | .freeze => acquires content ++ releases content

/-- The units that go to the caller: a unit that was acquired, or the one that the cell had on a
content that was replaced. -/
def handed (content : Option ObjectId) : Action → List ObjectId
  | .get | .copy | .snapshot | .replace _ | .assign _ | .take | .compareAndSwap .. | .swap .. =>
      content.toList
  | .swapIf expected _ => if content = expected then content.toList else []
  | .set _ | .compareAndSet .. | .version | .showText _ | .freeze => []

/-- The guard of an atomic cell has rejected what a call was to store. -/
def Refused (kind : CellKind) (action : Action) (outcome : Outcome) : Prop :=
  kind = .atomic ∧ ∃ obj, action.new? = some obj ∧ outcome = .rejected obj

/-- What a call that found a content has dealt in, and what it hands over. -/
inductive Settled (kind : CellKind) (content : Option ObjectId) (action : Action)
    (deals : List Effect) (outcome : Outcome) : Prop where
  | refused (hrefused : action.Refused kind outcome) (hdeals : deals = [])
  | served (hserved : ¬ action.Refused kind outcome) (hdeals : deals = action.dealings content)
      (hhanded : outcome.units = action.handed content)

/-- The unit that a call gives back itself, of what the slot yields. -/
def spare (result : Yield) : Action → Option ObjectId
  | .set _ | .compareAndSet .. | .version | .showText _ | .freeze => result.unit
  | _ => none

end Action

/-! ## Calls on a slot -/

namespace Phase

/-- The content, with its version, that a read has copied and has not looked at again. -/
def sighted? : Phase → Option Register
  | .pinning (.read _) content version | .parting (.read _) content version
  | .acquiring (.read _) content version | .unpinning (.read _) content version
  | .locking (.recheck content version _) | .copying (.recheck content version _) =>
      some { content := some content, version }
  | _ => none

/-- What a call on a slot still has to acquire if nobody comes in between. -/
def needs (start : Register) : Phase → List Effect
  | .locking (.recheck ..) | .copying (.recheck ..) => []
  | .locking errand | .copying errand => (errand.acquired start).map .acquire
  | .acquiringNew new => [.acquire new]
  | phase => phase.dues

/-- A call on a slot that has found the register that it has started with, and nothing else. -/
inductive Smooth (start : Register) : Errand → Register → Phase → Prop where
  | locking {errand : Errand} (hfresh : errand.Fresh) : Smooth start errand start (.locking errand)
  | copying {errand : Errand} (hfresh : errand.Fresh) : Smooth start errand start (.copying errand)
  | reading (attempt : UInt32) {phase : Phase} (hsighted : phase.sighted? = some start) :
      Smooth start (.read attempt) start phase
  | acquiringNew {expected : Option (Option ObjectId)} {obj : ObjectId} {observe : Bool}
      (hfound : expected.all (· == start.content) = true) :
      Smooth start (.exchange expected (some obj) observe) start (.acquiringNew obj)
  | storing {expected : Option (Option ObjectId)} {new : Option ObjectId} {observe : Bool}
      (hfound : expected.all (· == start.content) = true) :
      Smooth start (.exchange expected new observe) start (.storing new)
  | settled {errand : Errand} (register : Register) {phase : Phase}
      (hyield : phase.yield? = some (errand.settle start).1) : Smooth start errand register phase

variable {slot next : Slot} {phase later : Phase} {effect : Option Effect} {errand : Errand}
  {start register : Register}

theorem needs_fresh (hfresh : errand.Fresh) (start : Register) :
    (locking errand).needs start = (errand.acquired start).map .acquire ∧
      (copying errand).needs start = (errand.acquired start).map .acquire := by
  cases errand <;> first | exact hfresh.elim | exact ⟨rfl, rfl⟩

theorem needs_of_yield {result : Yield} (hyield : phase.yield? = some result) (start : Register) :
    phase.needs start = phase.dues := by
  cases phase <;> first | rfl | cases hyield

theorem filter_dues (phase : Phase) : phase.dues.filter Effect.deals = phase.dues := by
  unfold dues
  split <;> rfl

theorem filter_notes (phase : Phase) : phase.notes.filter Effect.deals = [] := by
  unfold notes
  split <;> rfl

/-- The content is copied, or it is clear what the call is going to store. -/
theorem smooth_copied (hfresh : errand.Fresh) (slot : Slot) :
    (copied slot errand).Smooth slot.register errand slot.register ∧
      (copied slot errand).needs slot.register =
        (errand.acquired slot.register).map .acquire := by
  cases errand with
  | recheck => exact hfresh.elim
  | version => exact ⟨.settled _ rfl, rfl⟩
  | snapshot =>
    cases hcontent : slot.content <;>
      simp only [copied, hcontent, Errand.acquired, Errand.settle, Slot.register] <;>
      exact ⟨.settled _ rfl, rfl⟩
  | read attempt =>
    cases hcontent : slot.content with
    | none =>
      simp only [copied, hcontent, Errand.acquired, Errand.settle, Slot.register]
      exact ⟨.settled _ rfl, rfl⟩
    | some content =>
      simp only [copied, hcontent, Errand.acquired, Errand.settle, Slot.register]
      exact ⟨.reading attempt rfl, rfl⟩
  | exchange expected new observe =>
    by_cases hfound : expected.all (· == slot.content) = true
    · have hsettle : (Errand.exchange expected new observe).settle slot.register =
          ({ unit := slot.content, replaced := true }, some new) := if_pos hfound
      simp only [copied, if_pos hfound, Errand.acquired, hsettle]
      cases new with
      | some obj => exact ⟨.acquiringNew hfound, rfl⟩
      | none => exact ⟨.storing hfound, rfl⟩
    · have hsettle : (Errand.exchange expected new observe).settle slot.register =
          ({ unit := if observe then slot.content else none }, none) := if_neg hfound
      simp only [copied, if_neg hfound, Errand.acquired, hsettle]
      cases hcontent : slot.content <;> cases observe <;>
        exact ⟨.settled _ (by rw [hsettle, hcontent]; rfl), rfl⟩

/-- A read that has copied the content finds the same one again. -/
theorem smooth_sighted (attempt : UInt32) (hsighted : phase.sighted? = some slot.register)
    (hstep : phase.step slot = some (next, later, effect)) :
    later.Smooth slot.register (.read attempt) next.register ∧
      effect.toList.filter Effect.deals ++ later.needs slot.register =
        phase.needs slot.register := by
  cases move_of_step hstep with
  | pin purpose | part purpose | acquire purpose | unpin purpose =>
    cases purpose with
    | read => exact ⟨.reading attempt hsighted, rfl⟩
    | _ => cases hsighted
  | lock errand =>
    cases errand with
    | recheck => exact ⟨.reading attempt hsighted, rfl⟩
    | _ => cases hsighted
  | copy errand =>
    cases errand with
    | recheck unit version again =>
      have hsame := Option.some.inj hsighted
      have hversion : slot.version = version := congrArg Register.version hsame.symm
      have hcontent : slot.register.content = some unit := congrArg Register.content hsame.symm
      refine ⟨.settled _ ?_, rfl⟩
      rw [copied, yield?, if_pos hversion, Errand.settle, hcontent]
    | _ => cases hsighted
  | _ => cases hsighted

/-- Each step of a call acquires what it needs at this point, or nothing. -/
theorem Smooth.step (hsmooth : phase.Smooth start errand slot.register)
    (hstep : phase.step slot = some (next, later, effect)) :
    later.Smooth start errand next.register ∧
      effect.toList.filter Effect.deals ++ later.needs start = phase.needs start := by
  generalize hregister : slot.register = register at hsmooth
  cases hsmooth with
  | locking hfresh =>
    obtain ⟨hlocking, hcopying⟩ := needs_fresh hfresh start
    cases move_of_step hstep
    have hcopies : (Phase.copying errand).Smooth start errand start := .copying hfresh
    rw [hlocking, hcopying]
    exact ⟨hregister ▸ hcopies, rfl⟩
  | copying hfresh =>
    subst hregister
    cases hstep
    obtain ⟨hlater, hneeds⟩ := smooth_copied hfresh slot
    rw [(needs_fresh hfresh _).2]
    exact ⟨hlater, hneeds⟩
  | reading attempt hsighted =>
    subst hregister
    exact smooth_sighted attempt hsighted hstep
  | acquiringNew hfound =>
    cases hstep
    rw [hregister]
    exact ⟨.storing hfound, rfl⟩
  | @storing expected new observe hfound =>
    subst hregister
    cases hstep
    have hsettle : (Errand.exchange expected new observe).settle slot.register =
        ({ unit := slot.content, replaced := true }, some new) := if_pos hfound
    exact ⟨.settled _ (by rw [hsettle]; rfl), rfl⟩
  | settled register hyield =>
    obtain ⟨hlater, -⟩ := yield?_step hyield hstep
    have hdues := congrArg (List.filter Effect.deals) (dues_step hyield hstep)
    rw [List.filter_append, List.filter_append, filter_dues, filter_dues, filter_notes,
      List.append_nil] at hdues
    rw [needs_of_yield hyield, needs_of_yield hlater]
    exact ⟨.settled _ hlater, hdues⟩

theorem Smooth.done {result : Yield} (hsmooth : (done result).Smooth start errand register) :
    result = (errand.settle start).1 := by
  cases hsmooth with
  | reading attempt hsighted => cases hsighted
  | settled register hyield => exact Option.some.inj hyield

/-- What a call on a slot has before it depends on the version of the slot only. -/
theorem cost_of_version (hversion : next.version = slot.version) (phase : Phase) :
    phase.cost next = phase.cost slot := by
  cases phase with
  | locking errand | copying errand => cases errand <;> simp only [cost, hversion]
  | _ => simp only [cost, hversion]

end Phase

/-! ## Calls on a cell -/

namespace Stage

/-- What a call that the slot is done with still has to give up. -/
def remains : Stage → List Effect
  | .writing unit _ | .vetting unit | .refusing unit | .releasing unit _ => [.release unit]
  | _ => []

/-- What is left of a call that has found a content is what its action asks for. -/
def Hands (content : Option ObjectId) (action : Action) : Stage → Prop
  | .writing .. | .vetting _ | .refusing _ => action.new? = none ∧ action.handed content = []
  | .releasing _ outcome | .finished outcome =>
      (action.new?.isSome = true → ∀ obj, outcome ≠ .rejected obj) ∧
        outcome.units = action.handed content
  | _ => False

/-- A call that its guard has stopped. -/
def Stopped (kind : CellKind) (action : Action) (stage : Stage) : Prop :=
  kind = .atomic ∧ ∃ obj, action.new? = some obj ∧
    (stage = .rejecting obj ∨ stage = .finished (.rejected obj))

/-- How far a call has come that has found the register that it has started with and nothing else,
and which units it has dealt in. -/
inductive Thrifty (kind : CellKind) (action : Action) (start : Register) :
    Register → List Effect → Stage → Prop where
  | asking {obj : ObjectId} (hkind : kind = .atomic) (hnew : action.new? = some obj) :
      Thrifty kind action start start [] (.asking obj (action.errand kind))
  | stopped (register : Register) {stage : Stage} (hstopped : stage.Stopped kind action) :
      Thrifty kind action start register [] stage
  | calling {register : Register} {deals : List Effect} {phase : Phase}
      (hphase : phase.Smooth start (action.errand kind) register)
      (hdeals : deals ++ (phase.needs start ++
        Effect.releases (action.spare ((action.errand kind).settle start).1)) =
          action.dealings start.content) :
      Thrifty kind action start register deals (.calling phase)
  | past (register : Register) {deals : List Effect} {stage : Stage}
      (hhands : stage.Hands start.content action)
      (hdeals : deals ++ stage.remains = action.dealings start.content) :
      Thrifty kind action start register deals stage

/-- A bound on the steps of a call to its outcome, the one on which it hands it over included, if
nobody replaces the content, and looks at pins that are in vain do not count. -/
def way (register : Register) : Stage → ℕ
  | .asking _ errand => (Phase.locking errand).cost { version := register.version } + 5
  | .calling phase => phase.cost { version := register.version } + 4
  | stage => stage.cost

variable {kind other : CellKind} {guard : Guard} {action : Action} {facts : ObjectId → Facts}
  {shape : Layout → ObjectId → Shape} {slot next : Slot} {stage later : Stage}
  {effect : Option Effect} {start register turned : Register} {deals : List Effect}

/-- What the slot yields is handed over or given back. -/
theorem hands_received (kind other : CellKind) (action : Action) (start : Register) :
    let result := ((action.errand kind).settle start).1
    (received other result action).Hands start.content action ∧
      (received other result action).remains = Effect.releases (action.spare result) := by
  have hgiveBack (unit : Option ObjectId) (outcome : Outcome)
      (hadmitted : ∀ obj, outcome ≠ .rejected obj)
      (hunits : outcome.units = action.handed start.content) :
      (giveBack unit outcome).Hands start.content action ∧
        (giveBack unit outcome).remains = Effect.releases unit := by
    cases unit <;> exact ⟨⟨fun _ => hadmitted, hunits⟩, rfl⟩
  cases action with
  | set new => exact hgiveBack _ .done (by simp) rfl
  | compareAndSet expected new => exact hgiveBack _ (.flag _) (by simp) rfl
  | version => exact hgiveBack none (.version start.version) (by simp) rfl
  | swapIf expected new =>
    refine ⟨⟨fun _ => by simp, ?_⟩, rfl⟩
    by_cases hsame : start.content = expected
    · simp [Action.errand, Errand.settle_same hsame, Outcome.units, Action.handed, hsame]
    · simp [Action.errand, Errand.settle_other hsame, Outcome.units, Action.handed, hsame]
  | compareAndSwap expected new | swap expected new =>
    refine ⟨⟨fun _ => by simp, ?_⟩, rfl⟩
    by_cases hsame : start.content = expected
    · simp [Action.errand, Errand.settle_same hsame, Outcome.units, Action.handed]
    · simp [Action.errand, Errand.settle_other hsame, Outcome.units, Action.handed]
  | showText layout | freeze =>
    simp only [Action.errand, received]
    split <;> rename_i hunit <;> refine ⟨⟨by simp [Action.new?], by rfl⟩, ?_⟩ <;>
      simp [remains, Effect.releases, Action.spare, hunit]
  | _ => exact ⟨⟨fun _ => by simp, by rfl⟩, rfl⟩

/-- After the call on the slot, each step releases what is left, or nothing. -/
theorem Hands.step {content : Option ObjectId} (hhands : stage.Hands content action)
    (hstep : stage.step kind guard action facts shape slot = some (next, later, effect)) :
    later.Hands content action ∧
      effect.toList.filter Effect.deals ++ later.remains = stage.remains := by
  cases move_of_step hstep with
  | accept | stop | reject | call | receive => exact hhands.elim
  | write | skip | approve | refuse => exact ⟨⟨by simp [hhands.1], hhands.2.symm⟩, rfl⟩
  | object | release => exact ⟨hhands, rfl⟩

theorem Stopped.step (hstopped : stage.Stopped kind action)
    (hstep : stage.step other guard action facts shape slot = some (next, later, effect)) :
    later.Stopped kind action ∧ effect.toList.filter Effect.deals = [] := by
  obtain ⟨hkind, obj, hnew, rfl | rfl⟩ := hstopped
  · cases hstep
    exact ⟨⟨hkind, obj, hnew, .inr rfl⟩, rfl⟩
  · cases hstep

/-- A call on a slot and what comes after it cost a line of the table. -/
theorem acquired_spare (kind : CellKind) (action : Action) (start : Register) :
    ((action.errand kind).acquired start).map .acquire ++
        Effect.releases (action.spare ((action.errand kind).settle start).1) =
      action.dealings start.content := by
  cases action with
  | compareAndSwap expected new | compareAndSet expected new | swap expected new
  | swapIf expected new =>
    by_cases hsame : start.content = expected
    · simp [Action.errand, Errand.acquired, Errand.settle_same hsame, Action.spare,
        Action.dealings, hsame, Effect.acquires, Effect.releases]
    · simp [Action.errand, Errand.acquired, Errand.settle_other hsame, Action.spare,
        Action.dealings, hsame, Effect.acquires, Effect.releases]
  | showText layout =>
    simp only [Action.errand]
    split <;> rfl
  | _ => simp [Action.errand, Errand.acquired, Errand.settle, Action.spare, Action.dealings,
      Effect.acquires, Effect.releases]

theorem thrifty_locking (kind : CellKind) (action : Action) (start : Register) :
    (calling (.locking (action.errand kind))).Thrifty kind action start start [] := by
  have hfresh := Errand.fresh_errand kind action
  refine .calling (.locking hfresh) ?_
  rw [List.nil_append, (Phase.needs_fresh hfresh start).1, acquired_spare]

theorem thrifty_opening (kind : CellKind) (action : Action) (start : Register) :
    (action.opening kind).Thrifty kind action start start [] := by
  unfold Action.opening
  split
  · rename_i new hnew
    exact .asking rfl hnew
  · exact thrifty_locking _ action start

/-- What is dealt in at each step is what is called for at this point. -/
theorem Thrifty.step (hthrifty : stage.Thrifty kind action start slot.register deals)
    (hstep : stage.step other guard action facts shape slot = some (next, later, effect)) :
    later.Thrifty kind action start next.register (deals ++ effect.toList.filter Effect.deals) := by
  generalize hregister : slot.register = register at hthrifty
  cases hthrifty with
  | @asking obj hkind hnew =>
    cases move_of_step hstep with
    | accept =>
      rw [hregister]
      exact thrifty_locking kind action start
    | stop => exact .stopped _ ⟨hkind, obj, hnew, .inl rfl⟩
  | stopped register hstopped =>
    obtain ⟨hlater, hnone⟩ := hstopped.step hstep
    rw [hnone]
    exact .stopped _ hlater
  | @calling _ deals phase hphase hdeals =>
    rcases step_calling hstep with ⟨result, rfl, rfl, rfl, rfl⟩ | ⟨after, hafter, rfl⟩
    · obtain ⟨hhands, hremains⟩ := hands_received kind other action start
      have hnone : deals ++ (none : Option Effect).toList.filter Effect.deals = deals :=
        List.append_nil deals
      rw [hphase.done, hnone]
      refine .past _ hhands ?_
      rw [hremains]
      exact hdeals
    · subst hregister
      obtain ⟨hlater, hneeds⟩ := hphase.step hafter
      refine .calling hlater ?_
      rw [← hdeals, ← hneeds]
      simp only [List.append_assoc]
  | past register hhands hdeals =>
    obtain ⟨hlater, hremains⟩ := hhands.step hstep
    refine .past _ hlater ?_
    rw [← hdeals, ← hremains, List.append_assoc]

/-- What others do makes no difference as long as they do not replace the content before the slot is
done with the call. -/
theorem Thrifty.turn (hthrifty : stage.Thrifty kind action start register deals)
    (hturned : ¬ stage.Past → turned = register) :
    stage.Thrifty kind action start turned deals := by
  cases hthrifty with
  | asking hkind hnew =>
    rw [hturned id]
    exact .asking hkind hnew
  | stopped _ hstopped => exact .stopped turned hstopped
  | calling hphase hdeals =>
    rw [hturned id]
    exact .calling hphase hdeals
  | past _ hhands hdeals => exact .past turned hhands hdeals

/-- No call deals in more than it should. -/
theorem Thrifty.le (hthrifty : stage.Thrifty kind action start register deals) :
    deals <+: action.dealings start.content := by
  cases hthrifty with
  | asking | stopped => exact List.nil_prefix
  | calling _ hdeals | past _ _ hdeals => exact ⟨_, hdeals⟩

theorem Thrifty.settled {outcome : Outcome}
    (hthrifty : (finished outcome).Thrifty kind action start register deals) :
    action.Settled kind start.content deals outcome := by
  cases hthrifty with
  | stopped _ hstopped =>
    obtain ⟨hkind, obj, hnew, hrejecting | hrejected⟩ := hstopped
    · cases hrejecting
    · exact .refused ⟨hkind, obj, hnew, finished.inj hrejected⟩ rfl
  | past _ hhands hdeals =>
    refine .served ?_ ?_ hhands.2
    · rintro ⟨-, obj, hnew, hrejected⟩
      exact hhands.1 (by rw [hnew]; rfl) obj hrejected
    · have hnone : (finished outcome).remains = [] := rfl
      rwa [hnone, List.append_nil] at hdeals

/-! ## How long it takes -/

theorem way_of_past (hpast : stage.Past) (register : Register) : stage.way register = stage.cost := by
  cases stage <;> first | rfl | exact hpast.elim

theorem two_le_way (hunder : ∀ outcome, stage ≠ .finished outcome) (register : Register) :
    2 ≤ stage.way register := by
  cases stage with
  | finished outcome => exact absurd rfl (hunder outcome)
  | asking | calling => exact Nat.le_add_left_of_le (by decide)
  | _ => simp [way, cost]

theorem way_turn (hturned : ¬ stage.Past → turned = register) :
    stage.way turned = stage.way register := by
  by_cases hpast : stage.Past
  · rw [way_of_past hpast, way_of_past hpast]
  · rw [hturned hpast]

theorem way_calling (phase : Phase) (slot : Slot) :
    (calling phase).way slot.register = phase.cost slot + 4 :=
  congrArg (· + 4) (Phase.cost_of_version rfl phase)

theorem way_opening (kind : CellKind) (action : Action) (register : Register) :
    (action.opening kind).way register ≤ 15 := by
  have hcost := Phase.cost_locking (Errand.fresh_errand kind action) { version := register.version }
  unfold Action.opening
  split
  · rw [way, hcost]
  · rw [way, hcost]
    omega

/-- Each step brings the outcome nearer, unless it is a look at pins that is in vain. -/
theorem way_step (hstep : stage.step kind guard action facts shape slot =
    some (next, later, effect)) :
    later.way next.register < stage.way slot.register + (stage.polls slot).toNat := by
  by_cases hpast : stage.Past
  · obtain ⟨hlater, -⟩ := hpast.step hstep
    rw [way_of_past hlater, way_of_past hpast]
    refine Nat.lt_add_right _ (cost_step ?_ hstep)
    rintro phase rfl
    exact hpast
  · have hasking (new : ObjectId) (errand : Errand) :
        (asking new errand).way slot.register = (Phase.locking errand).cost slot + 5 :=
      congrArg (· + 5) (Phase.cost_of_version rfl (.locking errand))
    cases move_of_step hstep with
    | accept =>
      rw [hasking, way_calling]
      exact Nat.lt_succ_self _
    | stop =>
      rw [hasking]
      simp only [way, cost]
      omega
    | call hphase =>
      have hless := Phase.cost_step hphase
      rw [way_calling, way_calling, polls]
      omega
    | receive result =>
      have hreceived := cost_received kind result action
      rw [way_calling, way_of_past (past_received kind result action), Phase.cost]
      omega
    | _ => exact absurd trivial hpast

end Stage

end SharedCell
