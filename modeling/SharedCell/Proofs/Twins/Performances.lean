import Mathlib
import SharedCell.Proofs.Solo.Performance
import SharedCell.Proofs.Twins.Crews

/-!
# Performances in step

An operation that the only thread performs in two worlds that go in step comes to an end in both of
them or in neither, with the same reply and in worlds that go in step.  The same goes for operations
that are performed one after the other.
-/

namespace SharedCell

variable {β γ : Type}

/-- Two ways to get to a world and to an answer: whatever one of them gets to, the other one gets to
with the same answer and in a related world. -/
structure InStep {ρ : Type} (related : World β → World γ → Prop) (left : World β → ρ → Prop)
    (right : World γ → ρ → Prop) : Prop where
  forth : ∀ next answer, left next answer → ∃ twin, right twin answer ∧ related next twin
  back : ∀ twin answer, right twin answer → ∃ next, left next answer ∧ related next twin

theorem InStep.mono {ρ : Type} {related other : World β → World γ → Prop}
    {left : World β → ρ → Prop} {right : World γ → ρ → Prop} (hstep : InStep related left right)
    (hrelated : ∀ next twin answer, left next answer → right twin answer → related next twin →
      other next twin) : InStep other left right := by
  constructor
  · intro next answer hleft
    obtain ⟨twin, hright, hsame⟩ := hstep.forth next answer hleft
    exact ⟨twin, hright, hrelated next twin answer hleft hright hsame⟩
  · intro twin answer hright
    obtain ⟨next, hleft, hsame⟩ := hstep.back twin answer hright
    exact ⟨next, hleft, hrelated next twin answer hleft hright hsame⟩

variable [Resident β] [Resident γ] {bond : Bond β γ}

namespace Solo

variable {left : Solo β} {right : Solo γ}

/-- Two threads that have the same to do come to the same end. -/
theorem ends_inStep [Lawful β] (hpaired : Crew.Paired bond left.crew right.crew)
    (hsound : left.crew.Sound) (hfull : bond.full = true) :
    InStep bond.Pairs (Ends left) (Ends right) := by
  have hlater (count : ℕ) : bond.Pairs (advance Solo.next count left).1
      (advance Solo.next count right).1 ∧
        (advance Solo.next count right).2 = (advance Solo.next count left).2 := by
    have hrun := hpaired.run hsound (List.replicate count 0) (.inl hfull)
    rw [crew_run, crew_run] at hrun
    exact ⟨hrun.worlds, List.singleton_inj.mp hrun.agendas⟩
  constructor
  · rintro next reply ⟨count, hends⟩
    obtain ⟨hworlds, hagenda⟩ := hlater count
    rw [hends] at hworlds hagenda
    exact ⟨_, ⟨count, Prod.ext rfl hagenda⟩, hworlds⟩
  · rintro twin reply ⟨count, hends⟩
    obtain ⟨hworlds, hagenda⟩ := hlater count
    rw [hends] at hworlds hagenda
    exact ⟨_, ⟨count, Prod.ext rfl hagenda.symm⟩, hworlds⟩

/-- A thread that has a single frame on its agenda. -/
theorem sound_single {world : World β} {frame : Frame} (hsound : world.Sound frame.stakes)
    (hordinary : frame.ordinary = true) : (crew (world, [frame])).Sound where
  world := by
    have hstakes : (crew (world, [frame])).stakes = frame.stakes := by
      simp [crew, Crew.stakes, stakesOf]
    rw [hstakes]
    exact hsound
  ordinary := by simpa [crew] using hordinary

theorem Ends.sound [Lawful β] {solo : Solo β} {next : World β} {reply : Reply}
    (hends : Ends solo next reply) (hsound : solo.crew.Sound) : next.Sound 0 := by
  obtain ⟨count, hends⟩ := hends
  have hrun := (hsound.run (List.replicate count 0)).world
  rw [crew_run, hends] at hrun
  exact hrun

end Solo

namespace Operation

/-! ## Single operations -/

section Single

variable {op : Operation} {left : World β} {right : World γ}

theorem start_sound [Lawful β] {world : World β} (hsound : world.Sound 0)
    (hordinary : op.ordinary = true) :
    (Solo.crew ((op.start 0 world).1, [(op.start 0 world).2])).Sound := by
  obtain ⟨hbegun, hframe⟩ := hsound.start hordinary 0
  exact Solo.sound_single (by simpa using hbegun) hframe

theorem Performs.sound [Lawful β] {world next : World β} {reply : Reply}
    (hperforms : op.Performs world next reply) (hsound : world.Sound 0)
    (hordinary : op.ordinary = true) : next.Sound 0 :=
  (performs_iff.mp hperforms).sound (start_sound hsound hordinary)

/-- An operation that begins with the same frame in both worlds is performed in step. -/
theorem inStep_of_start [Lawful β] (hsound : left.Sound 0) (hordinary : op.ordinary = true)
    (hfull : bond.full = true) (begun : World γ) (frame : Frame)
    (hends : ∀ twin reply, op.Performs right twin reply ↔
      Solo.Ends (begun, [frame]) twin reply)
    (hpairs : bond.Pairs (op.start 0 left).1 begun) (hsame : frame = (op.start 0 left).2)
    (hsuited : bond.Suited (op.start 0 left).2) :
    InStep bond.Pairs (op.Performs left) (op.Performs right) := by
  subst hsame
  have hpaired : Crew.Paired bond (Solo.crew ((op.start 0 left).1, [(op.start 0 left).2]))
      (Solo.crew (begun, [(op.start 0 left).2])) :=
    ⟨hpairs, rfl, by simpa [Solo.crew] using hsuited⟩
  obtain ⟨hforth, hback⟩ := Solo.ends_inStep hpaired (start_sound hsound hordinary) hfull
  constructor
  · intro next reply hperforms
    obtain ⟨twin, htwin, hrelated⟩ := hforth next reply (performs_iff.mp hperforms)
    exact ⟨twin, (hends twin reply).mpr htwin, hrelated⟩
  · intro twin reply hperforms
    obtain ⟨next, hnext, hrelated⟩ := hback twin reply ((hends twin reply).mp hperforms)
    exact ⟨next, performs_iff.mpr hnext, hrelated⟩

/-- An operation that suits is performed in step. -/
theorem performs_inStep [Lawful β] (hpairs : bond.Pairs left right) (hsound : left.Sound 0)
    (hfull : bond.full = true) (hsuits : op.suits bond.full bond.hidden = true) :
    InStep bond.Pairs (op.Performs left) (op.Performs right) := by
  obtain ⟨hbegun, hsame, hsuited⟩ := start_pairs 0 hpairs hsuits (.inl hfull)
  exact inStep_of_start hsound (ordinary_of_suits op hsuits) hfull _ _ (fun _ _ => performs_iff)
    hbegun hsame hsuited

end Single

/-! ## Operations in turn -/

/-- Operations that are begun in a world one after the other, with their replies. -/
inductive PerformsAll : World β → List Operation → World β → List Reply → Prop where
  | nil (world : World β) : PerformsAll world [] world []
  | cons {world between next : World β} {op : Operation} {ops : List Operation} {reply : Reply}
      {replies : List Reply} (hop : op.Performs world between reply)
      (hops : PerformsAll between ops next replies) :
      PerformsAll world (op :: ops) next (reply :: replies)

variable {world next : World β} {ops further : List Operation} {replies : List Reply}

theorem performsAll_cons {op : Operation} : PerformsAll world (op :: ops) next replies ↔
    ∃ between reply rest, op.Performs world between reply ∧ PerformsAll between ops next rest ∧
      replies = reply :: rest := by
  constructor
  · rintro (_ | ⟨hop, hops⟩)
    exact ⟨_, _, _, hop, hops, rfl⟩
  · rintro ⟨between, reply, rest, hop, hops, rfl⟩
    exact .cons hop hops

theorem performsAll_append : PerformsAll world (ops ++ further) next replies ↔
    ∃ between early late, PerformsAll world ops between early ∧
      PerformsAll between further next late ∧ replies = early ++ late := by
  induction ops generalizing world replies with
  | nil =>
    constructor
    · exact fun hall => ⟨world, [], replies, .nil world, hall, rfl⟩
    · rintro ⟨between, early, late, _ | _, hlate, rfl⟩
      exact hlate
  | cons op ops ih =>
    rw [List.cons_append]
    simp only [performsAll_cons, ih]
    constructor
    · rintro ⟨after, reply, rest, hop, ⟨between, early, late, hearly, hlate, rfl⟩, rfl⟩
      exact ⟨between, reply :: early, late, ⟨after, reply, early, hop, hearly, rfl⟩, hlate, rfl⟩
    · rintro ⟨between, all, late, ⟨after, reply, early, hop, hearly, rfl⟩, hlate, rfl⟩
      exact ⟨after, reply, early ++ late, hop, ⟨between, early, late, hearly, hlate, rfl⟩, rfl⟩

theorem PerformsAll.length (hall : PerformsAll world ops next replies) :
    replies.length = ops.length := by
  induction hall with
  | nil => rfl
  | cons _ _ ih => exact congrArg (· + 1) ih

theorem PerformsAll.sound [Lawful β] (hall : PerformsAll world ops next replies)
    (hsound : world.Sound 0) (hordinary : ordinaryAll ops = true) : next.Sound 0 := by
  induction hall with
  | nil => exact hsound
  | cons hop _ ih =>
    obtain ⟨hfirst, hrest⟩ := (ordinaryAll_cons _ _).mp hordinary
    exact ih (hop.sound hsound hfirst) hrest

/-- What is in step for the first operations and for those that come after them is in step for all
of them. -/
theorem inStep_cons {first last : World β → World γ → Prop} {left : World β} {right : World γ}
    {op other : Operation} (hop : InStep first (op.Performs left) (other.Performs right))
    (hops : ∀ after twin reply, op.Performs left after reply → other.Performs right twin reply →
      first after twin → InStep last (PerformsAll after ops) (PerformsAll twin further)) :
    InStep last (PerformsAll left (op :: ops)) (PerformsAll right (other :: further)) := by
  constructor
  · rintro next replies (_ | ⟨hleft, hrest⟩)
    obtain ⟨twin, hright, hrelated⟩ := hop.forth _ _ hleft
    obtain ⟨last, hlast, hsame⟩ := (hops _ twin _ hleft hright hrelated).forth _ _ hrest
    exact ⟨last, .cons hright hlast, hsame⟩
  · rintro twin replies (_ | ⟨hright, hrest⟩)
    obtain ⟨after, hleft, hrelated⟩ := hop.back _ _ hright
    obtain ⟨last, hlast, hsame⟩ := (hops after _ _ hleft hright hrelated).back _ _ hrest
    exact ⟨last, .cons hleft hlast, hsame⟩

theorem inStep_nil {related : World β → World γ → Prop} {left : World β} {right : World γ}
    (hrelated : related left right) : InStep related (PerformsAll left []) (PerformsAll right []) := by
  constructor
  · rintro next replies (_ | _)
    exact ⟨right, .nil right, hrelated⟩
  · rintro twin replies (_ | _)
    exact ⟨left, .nil left, hrelated⟩

/-- Operations that suit are performed in step. -/
theorem performsAll_inStep [Lawful β] {left : World β} {right : World γ}
    (hpairs : bond.Pairs left right) (hsound : left.Sound 0) (hfull : bond.full = true)
    (hsuits : suitsAll bond.full bond.hidden ops = true) :
    InStep bond.Pairs (PerformsAll left ops) (PerformsAll right ops) := by
  induction ops generalizing left right with
  | nil => exact inStep_nil hpairs
  | cons op ops ih =>
    obtain ⟨hop, hops⟩ := suitsAll_cons.mp hsuits
    refine inStep_cons (performs_inStep hpairs hsound hfull hop) fun after twin reply hleft _ => ?_
    exact fun hrelated => ih hrelated (hleft.sound hsound (ordinary_of_suits op hop)) hops

end Operation

end SharedCell
