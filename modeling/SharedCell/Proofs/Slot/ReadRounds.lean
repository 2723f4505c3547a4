import Mathlib
import SharedCell.Proofs.Cell.Exchange

/-!
# Rounds of a read

A read copies content and version, acquires a unit on the content, and looks at the version again.
If the content was replaced in between it reports so, gives the unit back and starts anew.  Between
the two looks at the version the content was replaced at least once, and the next round begins no
earlier than the second look, so replacements pay for rounds: what a read still has to do grows with
a replacement only, and shrinks with every step of its own.
-/

namespace SharedCell

/-! ## Rounds -/

/-- A round that ends with a new start: the unit that it acquired, the version of the content that
the unit is on, and the version that was found afterwards. -/
structure Lap where
  unit : ObjectId
  observed : ℕ
  current : ℕ

namespace Lap

/-- What rounds do, given how many there were before. -/
def effects : ℕ → List Lap → List Effect
  | _, [] => []
  | before, lap :: laps =>
      [.acquire lap.unit, .retry lap.observed lap.current (.ofNat (before + 1)),
          .release lap.unit] ++ effects (before + 1) laps

/-- Versions that rise from round to round: each round observes a version no earlier than the one
that the round before it ended with, and ends with a later one. -/
def Climb : ℕ → List Lap → ℕ → Prop
  | low, [], high => low ≤ high
  | low, lap :: laps, high =>
      low ≤ lap.observed ∧ lap.observed < lap.current ∧ Climb lap.current laps high

variable {low high top : ℕ} {laps : List Lap} {lap : Lap}

theorem effects_concat (before : ℕ) (laps : List Lap) (lap : Lap) :
    effects before (laps ++ [lap]) = effects before laps ++
      [.acquire lap.unit, .retry lap.observed lap.current (.ofNat (before + laps.length + 1)),
        .release lap.unit] := by
  induction laps generalizing before with
  | nil => rfl
  | cons first laps ih =>
    rw [List.cons_append, effects, ih, effects, List.append_assoc, List.length_cons,
      Nat.add_assoc before 1, Nat.add_comm 1]

theorem Climb.mono (hclimb : Climb low laps high) (hle : high ≤ top) : Climb low laps top := by
  induction laps generalizing low with
  | nil => exact hclimb.trans hle
  | cons lap laps ih => exact ⟨hclimb.1, hclimb.2.1, ih hclimb.2.2⟩

theorem Climb.concat (hclimb : Climb low laps lap.observed) (hrises : lap.observed < lap.current)
    (hle : lap.current ≤ high) : Climb low (laps ++ [lap]) high := by
  induction laps generalizing low with
  | nil => exact ⟨hclimb, hrises, hle⟩
  | cons first laps ih => exact ⟨hclimb.1, hclimb.2.1, ih hclimb.2.2⟩

/-- Every round takes the version at least one further. -/
theorem Climb.length_le (hclimb : Climb low laps high) : low + laps.length ≤ high := by
  induction laps generalizing low with
  | nil => exact hclimb
  | cons lap laps ih =>
    obtain ⟨hlow, hrises, hrest⟩ := hclimb
    have := ih hrest
    rw [List.length_cons]
    omega

/-- Every round gives back the unit that it acquired. -/
theorem count_effects (before : ℕ) (laps : List Lap) (obj : ObjectId) :
    (effects before laps).count (.acquire obj) = (effects before laps).count (.release obj) := by
  induction laps generalizing before with
  | nil => rfl
  | cons lap laps ih =>
    rw [effects, List.count_append, List.count_append, ih]
    by_cases hunit : lap.unit = obj <;> simp [hunit]

end Lap

/-- Whether a read reports that it starts anew. -/
def Effect.restarts : Effect → Bool
  | .retry .. => true
  | _ => false

namespace Phase

variable {slot next : Slot} {phase later : Phase} {effect : Option Effect} {register : Register}
  {effects : List Effect} {low : ℕ} {laps : List Lap}

/-- How far a read has come that has done all this since the content had this version: the rounds
that it has completed, and what it has done in the present one. -/
def Lapped (low : ℕ) (laps : List Lap) (register : Register) (effects : List Effect) :
    Phase → Prop
  | .locking (.read attempt) | .copying (.read attempt) =>
      attempt = .ofNat laps.length ∧ effects = Lap.effects 0 laps ∧ Lap.Climb low laps register.version
  | .pinning (.read attempt) _ version | .parting (.read attempt) _ version
  | .acquiring (.read attempt) _ version =>
      attempt = .ofNat laps.length ∧ effects = Lap.effects 0 laps ∧ Lap.Climb low laps version ∧
        version ≤ register.version
  | .unpinning (.read attempt) unit version | .locking (.recheck unit version attempt)
  | .copying (.recheck unit version attempt) =>
      attempt = .ofNat laps.length ∧ effects = Lap.effects 0 laps ++ [.acquire unit] ∧
        Lap.Climb low laps version ∧ version ≤ register.version
  | .comparing unit version attempt current =>
      attempt = .ofNat laps.length ∧ effects = Lap.effects 0 laps ++ [.acquire unit] ∧
        Lap.Climb low laps version ∧ version ≤ current ∧ current ≤ register.version
  | .reporting unit version attempt current =>
      attempt = .ofNat (laps.length + 1) ∧ effects = Lap.effects 0 laps ++ [.acquire unit] ∧
        Lap.Climb low laps version ∧ version < current ∧ current ≤ register.version
  | .discarding unit attempt =>
      attempt = .ofNat (laps.length + 1) ∧ ∃ version current,
        effects = Lap.effects 0 laps ++ [.acquire unit, .retry version current attempt] ∧
          Lap.Climb low laps version ∧ version < current ∧ current ≤ register.version
  | .leaving result | .done result =>
      result = { unit := result.unit } ∧
        effects = Lap.effects 0 laps ++ result.unit.toList.map .acquire ∧
          Lap.Climb low laps register.version
  | _ => False

theorem lapped_locking (register : Register) :
    (locking (.read 0)).Lapped register.version [] register [] :=
  ⟨rfl, rfl, le_rfl⟩

/-- A round is completed when its unit is given back. -/
theorem Lapped.step (hlapped : phase.Lapped low laps slot.register effects)
    (hstep : phase.step slot = some (next, later, effect)) :
    ∃ after, later.Lapped low after next.register (effects ++ effect.toList) := by
  cases move_of_step hstep with
  | lock errand =>
    rw [Option.toList_none, List.append_nil]
    cases errand with
    | read | recheck => exact ⟨laps, hlapped⟩
    | _ => exact hlapped.elim
  | copy errand =>
    rw [Option.toList_none, List.append_nil]
    cases errand with
    | read attempt =>
      obtain ⟨hattempt, heffects, hclimb⟩ := hlapped
      refine ⟨laps, ?_⟩
      cases hcontent : slot.content with
      | none =>
        simp only [copied, hcontent]
        exact ⟨rfl, by rw [heffects]; simp, hclimb⟩
      | some content =>
        simp only [copied, hcontent]
        exact ⟨hattempt, heffects, hclimb, le_rfl⟩
    | recheck unit version attempt =>
      obtain ⟨hattempt, heffects, hclimb, hversion⟩ := hlapped
      exact ⟨laps, hattempt, heffects, hclimb, hversion, le_rfl⟩
    | _ => exact hlapped.elim
  | pin purpose | part purpose | unpin purpose =>
    rw [Option.toList_none, List.append_nil]
    cases purpose with
    | read => exact ⟨laps, hlapped⟩
    | _ => exact hlapped.elim
  | acquire purpose content version =>
    cases purpose with
    | read attempt =>
      obtain ⟨hattempt, heffects, hclimb, hversion⟩ := hlapped
      exact ⟨laps, hattempt, by rw [heffects, Option.toList_some], hclimb, hversion⟩
    | _ => exact hlapped.elim
  | confirm unit version attempt =>
    obtain ⟨hattempt, heffects, hclimb, -, hcurrent⟩ := hlapped
    rw [Option.toList_none, List.append_nil]
    exact ⟨laps, rfl, heffects, hclimb.mono hcurrent⟩
  | outdate unit attempt hother =>
    obtain ⟨hattempt, heffects, hclimb, hversion, hcurrent⟩ := hlapped
    rw [Option.toList_none, List.append_nil]
    exact ⟨laps, by rw [hattempt, UInt32.ofNat_add]; rfl, heffects, hclimb,
      lt_of_le_of_ne hversion (Ne.symm hother), hcurrent⟩
  | report unit version attempt current =>
    obtain ⟨hattempt, heffects, hclimb, hrises, hcurrent⟩ := hlapped
    refine ⟨laps, hattempt, version, current, ?_, hclimb, hrises, hcurrent⟩
    rw [heffects, Option.toList_some, List.append_assoc, List.singleton_append]
  | discard unit attempt =>
    obtain ⟨hattempt, version, current, heffects, hclimb, hrises, hcurrent⟩ := hlapped
    refine ⟨laps ++ [{ unit, observed := version, current }], ?_, ?_, hclimb.concat hrises hcurrent⟩
    · rw [hattempt, List.length_append, List.length_singleton]
    · rw [heffects, hattempt, Lap.effects_concat, Option.toList_some, List.append_assoc, zero_add]
      rfl
  | leave result =>
    rw [Option.toList_none, List.append_nil]
    exact ⟨laps, hlapped⟩
  | acquireNew | store | depart | displace | poll | drain | emerge | note => exact hlapped.elim

/-- What others store makes later rounds observe later versions. -/
theorem Lapped.after (hlapped : phase.Lapped low laps register effects)
    (new : Option ObjectId) : phase.Lapped low laps (register.after (some new)) effects := by
  have hle : register.version ≤ (register.after (some new)).version := Nat.le_succ _
  cases phase with
  | locking errand | copying errand =>
    cases errand with
    | read => exact ⟨hlapped.1, hlapped.2.1, hlapped.2.2.mono hle⟩
    | recheck => exact ⟨hlapped.1, hlapped.2.1, hlapped.2.2.1, hlapped.2.2.2.trans hle⟩
    | _ => exact hlapped.elim
  | pinning purpose | parting purpose | acquiring purpose | unpinning purpose =>
    cases purpose with
    | read => exact ⟨hlapped.1, hlapped.2.1, hlapped.2.2.1, hlapped.2.2.2.trans hle⟩
    | _ => exact hlapped.elim
  | comparing | reporting =>
    obtain ⟨hattempt, heffects, hclimb, hversion, hcurrent⟩ := hlapped
    exact ⟨hattempt, heffects, hclimb, hversion, hcurrent.trans hle⟩
  | discarding =>
    obtain ⟨hattempt, version, current, heffects, hclimb, hrises, hcurrent⟩ := hlapped
    exact ⟨hattempt, version, current, heffects, hclimb, hrises, hcurrent.trans hle⟩
  | leaving | done => exact ⟨hlapped.1, hlapped.2.1, hlapped.2.2.mono hle⟩
  | _ => exact hlapped.elim

/-! ## What is still to be done -/

/-- Whether a read is bound to start anew, even if the content is not replaced any more. -/
def overdue (register : Register) : Phase → ℕ
  | .pinning _ _ version | .parting _ _ version | .acquiring _ _ version | .unpinning _ _ version
  | .locking (.recheck _ version _) | .copying (.recheck _ version _) =>
      if version = register.version then 0 else 1
  | .comparing _ version _ current => if current = version then 0 else 1
  | .reporting .. => 1
  | _ => 0

/-- The steps that a read still makes if it does not start anew. -/
def ahead : Phase → ℕ
  | .locking (.read _) => 9
  | .copying (.read _) => 8
  | .pinning .. => 7
  | .parting .. => 6
  | .acquiring .. => 5
  | .unpinning .. => 4
  | .locking (.recheck ..) => 3
  | .copying (.recheck ..) => 2
  | .comparing .. | .leaving _ => 1
  | .discarding .. => 10
  | _ => 0

theorem overdue_le (phase : Phase) (register : Register) : phase.overdue register ≤ 1 := by
  unfold overdue
  repeat' split
  all_goals omega

theorem work_le (phase : Phase) (register : Register) :
    phase.ahead + 11 * phase.overdue register ≤ 18 := by
  cases phase with
  | locking errand | copying errand =>
    cases errand <;> simp only [ahead, overdue] <;> (try split) <;> omega
  | _ =>
    simp only [ahead, overdue]
    try split
    all_goals omega

/-- A read reports a new start only if it was bound to, and finds that it is only when it looks at
the version. -/
theorem overdue_step (hstep : phase.step slot = some (next, later, effect)) :
    effect.toList.countP Effect.restarts + later.overdue next.register ≤
      phase.overdue slot.register := by
  cases move_of_step hstep with
  | lock errand => cases errand <;> exact le_of_eq (Nat.zero_add _)
  | copy errand =>
    rw [Option.toList_none, List.countP_nil, zero_add]
    cases errand with
    | recheck unit version attempt => exact le_of_eq (if_congr eq_comm rfl rfl)
    | _ =>
      simp only [copied]
      repeat' split
      all_goals simp [overdue, Slot.register]
  | pin | part | acquire => exact le_of_eq (Nat.zero_add _)
  | unpin purpose =>
    cases purpose with
    | read => exact le_of_eq (Nat.zero_add _)
    | _ => exact Nat.zero_le _
  | confirm => exact Nat.zero_le _
  | outdate unit attempt hother => exact le_of_eq (if_neg hother).symm
  | _ => exact le_rfl

/-- Each step of a read brings its end nearer. -/
theorem Lapped.work_step (hlapped : phase.Lapped low laps slot.register effects)
    (hstep : phase.step slot = some (next, later, effect)) :
    later.ahead + 11 * later.overdue next.register + 1 ≤
      phase.ahead + 11 * phase.overdue slot.register := by
  have hoverdue := overdue_step hstep
  cases move_of_step hstep with
  | lock errand =>
    cases errand with
    | read | recheck =>
      simp only [ahead]
      omega
    | _ => exact hlapped.elim
  | copy errand =>
    cases errand with
    | read attempt =>
      have hahead : (copied slot (.read attempt)).ahead ≤ 7 := by
        simp only [copied]
        split <;> simp [ahead]
      have hbefore : (copying (.read attempt)).ahead = 8 := rfl
      omega
    | recheck =>
      simp only [ahead, copied] at hoverdue ⊢
      omega
    | _ => exact hlapped.elim
  | pin | part | acquire =>
    simp only [ahead]
    omega
  | unpin purpose =>
    cases purpose with
    | read =>
      simp only [ahead, acquired] at hoverdue ⊢
      omega
    | _ => exact hlapped.elim
  | confirm =>
    simp only [ahead, overdue]
    omega
  | outdate unit attempt hother =>
    simp only [ahead, overdue, if_neg hother]
    omega
  | report | discard | leave => simp [ahead, overdue]
  | acquireNew | store | depart | displace | poll | drain | emerge | note => exact hlapped.elim

end Phase

end SharedCell
