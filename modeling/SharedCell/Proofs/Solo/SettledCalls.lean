import Mathlib
import SharedCell.Proofs.Agenda.FramesAbove
import SharedCell.Proofs.Solo.IdleSlots
import SharedCell.Proofs.Solo.Writes

/-!
# Calls that have taken effect

What a call ends with is settled when it takes effect, and so is what it leaves in its cell.  The
operations that objects perform when they are destroyed come later: they find the cell as the call
has left it, the call itself does not write again, and nothing that they do changes its outcome.
-/

namespace SharedCell.Solo

variable {β : Type} [Resident β] {solo later : Solo β}

/-! ## What is below -/

/-- What takes no notice of replies stays as it is until it is on top. -/
theorem leap_above {above below : List Frame} {frame : Frame}
    (hagenda : solo.2 = above ++ frame :: below) (hnonempty : above ≠ []) (hinert : frame.Inert)
    (hleap : solo.leap = some later) : ∃ rest, later.2 = rest ++ frame :: below := by
  rcases leap_cases hleap with ⟨call, others, errand, cell, htop, -, -, rfl⟩ | ⟨-, hnext⟩
  · obtain ⟨top, above, rfl⟩ := List.exists_cons_of_ne_nil hnonempty
    obtain ⟨-, rfl⟩ := List.cons.inj (htop.symm.trans hagenda)
    exact ⟨_ :: above, rfl⟩
  · rw [next, hagenda, Frame.step_above 0 solo.1 below hnonempty hinert] at hnext
    obtain ⟨⟨world, rest⟩, -, rfl⟩ := Option.map_eq_some_iff.mp hnext
    exact ⟨rest, rfl⟩

/-- An operation that has its reply keeps it, whatever is left to do for it. -/
theorem leap_tidy {above below : List Frame} {chores : List Chore} {reply : Reply}
    (hagenda : solo.2 = above ++ .tidy chores reply :: below) (hleft : above ≠ [] ∨ chores ≠ [])
    (hleap : solo.leap = some later) :
    ∃ rest left, later.2 = rest ++ .tidy left reply :: below := by
  by_cases hnonempty : above = []
  · subst hnonempty
    obtain ⟨chore, chores, rfl⟩ := List.exists_cons_of_ne_nil (hleft.resolve_left (· rfl))
    have hother : ∀ call others errand, solo.2 = .call call :: others →
        call.stage ≠ .calling (.locking errand) := by
      rintro call others errand heq
      rw [hagenda] at heq
      cases heq
    rw [leap_eq_next hother, next, hagenda] at hleap
    obtain rfl := Option.some.inj hleap
    exact ⟨_, chores, rfl⟩
  · obtain ⟨rest, hrest⟩ := leap_above hagenda hnonempty (Frame.inert_tidy chores reply) hleap
    exact ⟨rest, chores, hrest⟩

/-! ## Registers -/

/-- A step that may change the register of a cell. -/
inductive Writes (solo later : Solo β) (name : String) : Prop where
  /-- A call takes effect, and leaves what its errand stores. -/
  | settles (call : Call) (below : List Frame) (errand : Errand) (register : Register)
      (hagenda : solo.2 = .call call :: below) (hname : call.cell = name)
      (hstage : call.stage = .calling (.locking errand))
      (hbefore : solo.1.register? name = some register)
      (hafter : later.1.register? name = some (register.after (errand.settle register).2))
  /-- A copy takes its place. -/
  | copies (call : Call) (below : List Frame) (content : Option ObjectId)
      (hagenda : solo.2 = .call call :: below) (hstage : call.stage = .finished (.unit content))
      (haction : call.action = .copy) (hcopy : call.copy = some name)
      (hafter : later.1.register? name = some { content, version := 0 })
  /-- An operation begins that makes the cell or consumes it. -/
  | starts (op : Operation) (hop : Frame.op? solo.2 = some op)
      (hrewrites : op.Rewrites name (solo.1.register? name) (later.1.register? name))

theorem Calm.writes (hcalm : solo.Calm) (hleap : solo.leap = some later) (name : String) :
    later.1.register? name = solo.1.register? name ∨ Writes solo later name := by
  rcases leap_cases hleap with
    ⟨call, below, errand, cell, hagenda, hstage, hcell, rfl⟩ | ⟨hother, hnext⟩
  · by_cases hname : call.cell = name
    · subst hname
      right
      refine .settles call below errand cell.slot.register hagenda rfl hstage ?_ ?_
      · exact World.register?_of_cell hcell
      · exact World.register?_leap hcell _ _
    · left
      rw [World.register?, World.cell?_leap_of_ne (Ne.symm hname), World.register?]
  · rcases Frame.register?_step hcalm.ordinary hnext name with hsame | hwrites
    · exact .inl hsame
    · right
      cases hwrites with
      | stores call below hagenda hname hstores =>
        have hidle := (hcalm.poised call (hagenda ▸ List.mem_cons_self)).idle
        exact absurd hstores (Phase.not_stores_of_idle hidle)
      | copies call below content hagenda hstage haction hcopy hafter =>
        exact .copies call below content hagenda hstage haction hcopy hafter
      | starts op hop hrewrites => exact .starts op hop hrewrites

/-! ## Outcomes -/

/-- The call on top is about to hand over its outcome. -/
def Concludes (call : Call) (below : List Frame) (outcome : Outcome) (solo : Solo β) : Prop :=
  solo.2 = .call { call with stage := .finished outcome } :: below

/-- The reply of a call is that to its outcome. -/
theorem Concludes.leap {call : Call} {below : List Frame} {outcome : Outcome}
    (hconcludes : Concludes call below outcome solo) : ∃ world chores, solo.leap =
      some (world, .tidy chores (call.settle solo.1 outcome).2.2 :: below) := by
  have hother : ∀ call below errand, solo.2 = .call call :: below →
      call.stage ≠ .calling (.locking errand) := by
    rintro other rest errand heq hstage
    rw [hconcludes] at heq
    cases heq
    cases hstage
  rw [leap_eq_next hother, next, hconcludes]
  exact ⟨_, _, rfl⟩

/-- A call that took effect on the register of a cell, having stored something or not: until it has
its outcome nothing interrupts it, and its outcome is an answer for this register. -/
inductive Course (call : Call) (below : List Frame) (cell : Cell)
    (stored : Option (Option ObjectId)) (solo : Solo β) : Prop where
  | going (stage : Stage) (found : Cell) (hagenda : solo.2 = .call { call with stage } :: below)
      (hcell : solo.1.cell? call.cell = some found) (hkind : found.kind = cell.kind)
      (hguard : found.guard = cell.guard) (hpast : stage.Past)
      (hsettled : stage.Settled cell.kind cell.guard call.action cell.slot.register stored)
  | finished (above : List Frame) (outcome : Outcome)
      (hagenda : solo.2 = above ++ .call { call with stage := .finished outcome } :: below)
      (hanswers : Answers cell.kind cell.guard call.action cell.slot.register outcome stored)

variable {call : Call} {below : List Frame} {cell : Cell} {stored : Option (Option ObjectId)}

/-- A step of a call on its way to its outcome. -/
theorem course_step {world : World β} {stage : Stage} {found : Cell}
    (hcell : world.cell? call.cell = some found) (hkind : found.kind = cell.kind)
    (hguard : found.guard = cell.guard) (hpast : stage.Past)
    (hsettled : stage.Settled cell.kind cell.guard call.action cell.slot.register stored)
    (hunfinished : ∀ outcome, stage ≠ .finished outcome)
    (hnext : next (world, .call { call with stage } :: below) = some later) :
    Course call below cell stored later := by
  obtain ⟨⟨after, frames⟩, hactive, hresult⟩ := Option.map_eq_some_iff.mp hnext
  obtain rfl := hresult
  rcases Call.step_cases hactive with
    ⟨outcome, hfinished, -, -⟩ | ⟨same, slot, later, effect, hsame, hstage, rfl, rfl⟩
  · exact absurd hfinished (hunfinished outcome)
  · obtain rfl := Option.some.inj (hcell.symm.trans hsame)
    obtain ⟨hlater, hrelease⟩ := hpast.step hstage
    rw [hkind, hguard] at hstage
    obtain ⟨hagain, -⟩ := hsettled.step hstage
    rcases Call.affect_cases (world.modifyCell call.cell ({ · with slot })) 0 found.guard effect
      with hnone | ⟨obj, frame, rfl, hframe, -⟩
    · refine .going later { found with slot } ?_ ?_ hkind hguard hlater hagain
      · dsimp only
        rw [hnone]
        rfl
      · rw [World.cell?, Call.cells_affect]
        exact World.cell?_modifyCell hcell
    · obtain ⟨outcome, rfl⟩ := hrelease obj rfl
      refine .finished [frame] outcome ?_ hagain
      dsimp only
      rw [hframe]
      rfl

/-- A call keeps to its course until it concludes. -/
theorem Course.leap (hcourse : Course call below cell stored solo)
    (hleap : solo.leap = some later) :
    Course call below cell stored later ∨ ∃ outcome, Concludes call below outcome solo ∧
      Answers cell.kind cell.guard call.action cell.slot.register outcome stored := by
  cases hcourse with
  | going stage found hagenda hcell hkind hguard hpast hsettled =>
    by_cases hfinished : ∃ outcome, stage = .finished outcome
    · obtain ⟨outcome, rfl⟩ := hfinished
      exact .inr ⟨outcome, hagenda, hsettled⟩
    · left
      have hother : ∀ call below errand, solo.2 = .call call :: below →
          call.stage ≠ .calling (.locking errand) := by
        rintro other rest errand heq hstage
        rw [hagenda] at heq
        cases heq
        cases hstage
        exact hpast.elim
      rw [leap_eq_next hother] at hleap
      obtain ⟨world, agenda⟩ := solo
      obtain rfl : agenda = .call { call with stage } :: below := hagenda
      exact course_step hcell hkind hguard hpast hsettled
        (fun outcome heq => hfinished ⟨outcome, heq⟩) hleap
  | finished above outcome hagenda hanswers =>
    by_cases hnonempty : above = []
    · subst hnonempty
      exact .inr ⟨outcome, hagenda, hanswers⟩
    · obtain ⟨rest, hrest⟩ := leap_above hagenda hnonempty (Frame.inert_call _) hleap
      exact .inl (.finished rest outcome hrest hanswers)

/-- The outcome of a call is an answer for the register that the call found, whatever happens until
it concludes. -/
theorem Calm.course [Lawful β] {opening : Solo β} (hcalm : opening.Calm) {count : ℕ}
    {errand : Errand} (hagenda : (Solo.advance Solo.leap count opening).2 = .call call :: below)
    (hstage : call.stage = .calling (.locking errand))
    (hcell : (Solo.advance Solo.leap count opening).1.cell? call.cell = some cell) (more : ℕ) :
    Course call below cell (errand.settle cell.slot.register).2
        (Solo.advance Solo.leap (count + 1 + more) opening) ∨
      ∃ ended outcome, count < ended ∧ ended < count + 1 + more ∧
        Concludes call below outcome (Solo.advance Solo.leap ended opening) ∧
        Answers cell.kind cell.guard call.action cell.slot.register outcome
          (errand.settle cell.slot.register).2 := by
  induction more with
  | zero =>
    left
    rw [Nat.add_zero, advance_succ, leap_locking hagenda hstage hcell, Option.getD_some]
    obtain ⟨found, hfound, rfl⟩ := (hcalm.advance count).errand hagenda hstage
    obtain rfl := Option.some.inj (hcell.symm.trans hfound)
    exact .going _ _ rfl (World.cell?_leap hcell _ _) rfl rfl (Stage.past_received _ _ _)
      (Stage.settled_received cell.kind cell.guard call.action cell.slot.register)
  | succ more ih =>
    rw [← Nat.add_assoc, advance_succ]
    rcases ih with hcourse | ⟨ended, outcome, hafter, hbefore, hends⟩
    · cases hleap : (Solo.advance Solo.leap (count + 1 + more) opening).leap with
      | none => exact .inl hcourse
      | some later =>
        rw [Option.getD_some]
        rcases hcourse.leap hleap with hagain | ⟨outcome, hends⟩
        · exact .inl hagain
        · exact .inr ⟨_, outcome, by omega, by omega, hends⟩
    · exact .inr ⟨ended, outcome, hafter, by omega, hends⟩

end SharedCell.Solo
