import Mathlib
import SharedCell.Proofs.Ownership.Tables

/-!
# Cells and calls

What operations do to cells.  A cell is made and given up with its content, calls use it until they
are settled, and a call that makes a step moves units between its cell and itself.
-/

namespace SharedCell

open Text

namespace World

namespace Sound

variable {β : Type} [Resident β] {world : World β} {stakes : Stakes} {name : String} {cell : Cell}
  {call : Call}

/-! ## Making and giving up -/

theorem addCell {kind : CellKind} {guard : Guard} {content : Option ObjectId}
    (hsound : world.Sound (.unitsOn ↑content.toList + stakes)) (hnew : world.cell? name = none)
    (haccepts : kind = .atomic → guard.Steadfast → ∀ obj, content = some obj →
      guard.accepts (world.facts obj) = true) :
    (world.addCell name { kind, guard, slot := { content } }).Sound stakes where
  books := by
    have howned : (world.addCell name { kind, guard, slot := { content } }).owned =
        ↑content.toList + world.owned := by
      unfold owned World.addCell
      rw [← Multiset.cons_coe, Multiset.cons_bind, Slot.units]
      abel
    have hbooks := hsound.books
    rw [Stakes.inHand_add, (Stakes.unitsOn_parts _).1, add_left_comm] at hbooks
    rw [howned, add_assoc]
    exact hbooks
  held := hsound.held.congr (by simp) (by simp) (by simp)
  raws := hsound.raws
  housed := (hsound.housed.congr (by simp) (by simp)).push hnew (Cell.Sound.opening haccepts)
  scripts := hsound.scripts

theorem eraseCell (hsound : world.Sound stakes) (hcell : world.cell? name = some cell)
    (hidle : cell.idle = true) :
    (world.eraseCell name).Sound (.unitsOn ↑cell.slot.content.toList + stakes) where
  books := by
    obtain ⟨front, back, hplace, hothers⟩ :=
      exists_keyed Prod.fst hsound.housed.names (mem_of_lookup hcell)
    have howned : world.owned = ↑cell.slot.content.toList + (world.eraseCell name).owned := by
      have hfilter : world.cells.filter (·.1 != name) = front ++ back := by
        rw [hplace]
        exact filter_keyed hothers
      unfold owned World.eraseCell
      rw [hfilter, hplace]
      simp only [← Multiset.coe_add, ← Multiset.cons_coe, Multiset.add_bind, Multiset.cons_bind,
        Slot.units]
      abel
    have hbooks := hsound.books
    rw [howned] at hbooks
    rw [Stakes.inHand_add, (Stakes.unitsOn_parts _).1, add_left_comm, ← add_assoc]
    exact hbooks
  held := hsound.held.congr (by simp) (by simp) (by simp)
  raws := hsound.raws
  housed := by
    have husers := (hsound.housed.sound name cell (mem_of_lookup hcell)).users
    simp only [Cell.idle, Bool.and_eq_true, beq_iff_eq, Bool.not_eq_true'] at hidle
    rw [hidle.1, hidle.2] at husers
    exact (hsound.housed.erase (Multiset.count_eq_zero.mp husers.symm)).congr (by simp) (by simp)
  scripts := hsound.scripts

/-! ## Calls -/

omit [Resident β] in
/-- A cell that changes trades units. -/
theorem owned_modifyCell {change : Cell → Cell} (hnames : (world.cells.map Prod.fst).Nodup)
    (hcell : (name, cell) ∈ world.cells) :
    (world.modifyCell name change).owned + cell.slot.units =
      world.owned + (change cell).slot.units := by
  obtain ⟨front, back, hplace, hothers⟩ := exists_keyed Prod.fst hnames hcell
  have hchanged : (world.modifyCell name change).cells = front ++ (name, change cell) :: back := by
    rw [World.modifyCell, hplace]
    exact map_keyed hothers fun entry => (entry.1, change entry.2)
  rw [owned, hchanged, owned, hplace]
  simp only [World.modifyCell, ← Multiset.coe_add, ← Multiset.cons_coe, Multiset.add_bind,
    Multiset.cons_bind]
  abel

/-- A cell changes, and with it what is at stake. -/
theorem modifyCell {after : Stakes} {change : Cell → Cell} (hsound : world.Sound stakes)
    (hcell : (name, cell) ∈ world.cells)
    (hunits : (change cell).slot.units + after.inHand = cell.slot.units + stakes.inHand)
    (hheld : Held world.holders world.nextHolder after)
    (hvisited : ∀ other, other ≠ name →
      after.visited.count other = stakes.visited.count other)
    (hcalls : ∀ other, other ≠ name → after.callsOn other = stakes.callsOn other)
    (hcellSound : (change cell).Sound (after.visited.count name) (after.callsOn name)
      world.facts) :
    (world.modifyCell name change).Sound after where
  books := by
    have htotal : (world.modifyCell name change).owned + after.inHand =
        world.owned + stakes.inHand := by
      apply add_right_cancel (b := cell.slot.units)
      calc (world.modifyCell name change).owned + after.inHand + cell.slot.units
          = (world.modifyCell name change).owned + cell.slot.units + after.inHand := by abel
        _ = world.owned + ((change cell).slot.units + after.inHand) := by
            rw [owned_modifyCell hsound.housed.names hcell, add_assoc]
        _ = world.owned + stakes.inHand + cell.slot.units := by
            rw [hunits]
            abel
    rw [htotal]
    exact hsound.books
  held := hheld
  raws := hsound.raws
  housed := hsound.housed.revise hcell hvisited hcalls hcellSound
  scripts := hsound.scripts

/-- A call is begun, with handles that are in use already. -/
theorem beginCall {thread : ℕ} (call : Call) (hsound : world.Sound (.usesOf call.holders + stakes))
    (hcell : (call.cell, cell) ∈ world.cells)
    (hbars : cell.bars thread call.action.looks = false)
    (hstage : call.stage = call.action.opening cell.kind)
    (hcopying : call.action = .copy → cell.kind = .atomic)
    (hfreezing : call.action = .freeze → cell.kind = .freezable)
    (hbacked : call.Backed world.holders) :
    (world.useCell call.cell thread call.action.looks).Sound (.making call + stakes) := by
  refine hsound.modifyCell hcell ?_ ?_ ?_ ?_ ?_
  · simp [hstage, Stage.units_opening]
  · refine hsound.held.mono (by simp) (by simp) ?_
    intro other hother
    have hcase : other = call ∨ other ∈ stakes.calls := by simpa using hother
    rcases hcase with rfl | hother
    · exact hbacked
    · exact hsound.held.backed other (by simpa using hother)
  · intro other hne
    simp [hne]
  · intro other hne
    rw [Stakes.callsOn_add, Stakes.callsOn_add, Stakes.callsOn_making_of_ne hne.symm,
      Stakes.callsOn_of_calls (Stakes.usesOf_parts _).2.2.2.1]
  · have hbefore := hsound.housed.sound call.cell cell hcell
    rw [Stakes.callsOn_add, Stakes.callsOn_of_calls (Stakes.usesOf_parts _).2.2.2.1,
      zero_add] at hbefore
    have hbegun := hbefore.begin hbars hstage hcopying hfreezing
    simpa [add_comm] using hbegun

/-- An operation leaves a cell. -/
theorem leaveCell (hsound : world.Sound (.visitTo name + stakes)) (thread : ℕ) :
    (world.leaveCell name thread).Sound stakes := by
  obtain ⟨cell, hcell⟩ := hsound.housed.present name (by simp)
  have hcalls (other : String) : (Stakes.visitTo name + stakes).callsOn other =
      stakes.callsOn other := by
    rw [Stakes.callsOn_add, Stakes.callsOn_of_calls (Stakes.visitTo_parts _).2.2.2.1, zero_add]
  refine hsound.modifyCell hcell ?_ ?_ ?_ ?_ ?_
  · simp
  · exact hsound.held.congr (by simp) (by simp) (by simp)
  · intro other hne
    simp [hne]
  · exact fun other _ => (hcalls other).symm
  · have hbefore := hsound.housed.sound name cell hcell
    rw [hcalls, Stakes.visited_add, (Stakes.visitTo_parts name).2.2.1, Multiset.count_add,
      Multiset.count_singleton_self, add_comm] at hbefore
    exact hbefore.leave (stakes.card_callsOn_le name) thread

/-- What a call acquires is the content of its cell, or a call carries it. -/
theorem kept_of_acquired {facts : ObjectId → Facts} {shape : Layout → ObjectId → Shape}
    {slot : Slot} {stage : Stage} {obj : ObjectId} (hsound : world.Sound stakes)
    (hcall : call ∈ stakes.calls) (hcell : (call.cell, cell) ∈ world.cells)
    (hstep : call.stage.step cell.kind cell.guard call.action facts shape cell.slot =
      some (slot, stage, some (.acquire obj))) :
    cell.slot.content = some obj ∨
      ∃ other ∈ stakes.calls, other.stage.Fits other.action ∧ other.stage.Carries obj := by
  have hcellSound := hsound.housed.sound call.cell cell hcell
  have hmem : call ∈ stakes.callsOn call.cell := Stakes.mem_callsOn.mpr ⟨hcall, rfl⟩
  rcases Stage.acquires_step hstep with ⟨version, hpinned⟩ | hpending
  · rcases hcellSound.pinned_kept hmem hpinned with hcontent | ⟨other, hother, hunit⟩
    · exact .inl hcontent
    · exact .inr ⟨other, (Stakes.mem_callsOn.mp hother).1, hcellSound.fits other hother,
        .inl hunit⟩
  · exact .inr ⟨call, hcall, hcellSound.fits call hmem, .inr hpending⟩

/-- What a call acquires is owned already. -/
theorem owned_of_acquired {facts : ObjectId → Facts} {shape : Layout → ObjectId → Shape}
    {slot : Slot} {stage : Stage} {obj : ObjectId} (hsound : world.Sound stakes)
    (hcall : call ∈ stakes.calls) (hcell : (call.cell, cell) ∈ world.cells)
    (hstep : call.stage.step cell.kind cell.guard call.action facts shape cell.slot =
      some (slot, stage, some (.acquire obj))) :
    obj ∈ world.owned + stakes.inHand := by
  rcases hsound.kept_of_acquired hcall hcell hstep with hcontent | ⟨other, hother, hfits, hcarries⟩
  · exact Multiset.mem_add.mpr (.inl (owned_of_content hcell hcontent))
  · exact hsound.owned_of_carries hother hfits hcarries

/-- A call makes a step.  A unit that it is to acquire is in hand already, and one that it has
released still is. -/
theorem stepCall {shape : Layout → ObjectId → Shape} {slot : Slot} {stage : Stage}
    {effect : Option Effect}
    (hsound : world.Sound (.unitsOn (Effect.gains effect) + (.making call + stakes)))
    (hcell : (call.cell, cell) ∈ world.cells)
    (hstep : call.stage.step cell.kind cell.guard call.action world.facts shape cell.slot =
      some (slot, stage, effect)) :
    (world.modifyCell call.cell ({ · with slot })).Sound
      (.unitsOn (Effect.losses effect) + (.making { call with stage } + stakes)) := by
  have hnone (objs : Multiset ObjectId) (name : String) : (Stakes.unitsOn objs).callsOn name = 0 :=
    Stakes.callsOn_of_calls (Stakes.unitsOn_parts objs).2.2.2.1
  have hbefore := hsound.housed.sound call.cell cell hcell
  rw [Stakes.callsOn_add, Stakes.callsOn_add, hnone, zero_add, Stakes.callsOn_making,
    Multiset.singleton_add] at hbefore
  have hunits := Stage.step_units (hbefore.fits call (Multiset.mem_cons_self call _)) hstep
  refine hsound.modifyCell hcell ?_ ?_ ?_ ?_ ?_
  · calc slot.units + (Stakes.unitsOn (Effect.losses effect) +
            (.making { call with stage } + stakes)).inHand
        = (stage.units + slot.units + Effect.losses effect) + stakes.inHand := by
          simp only [Stakes.inHand_add, Stakes.unitsOn_parts, Stakes.making_parts]
          abel
      _ = (call.stage.units + cell.slot.units + Effect.gains effect) + stakes.inHand := by
          rw [hunits]
      _ = cell.slot.units + (Stakes.unitsOn (Effect.gains effect) +
            (.making call + stakes)).inHand := by
          simp only [Stakes.inHand_add, Stakes.unitsOn_parts, Stakes.making_parts]
          abel
  · refine hsound.held.mono (by simp) (by simp) ?_
    intro other hother
    have hcase : other = { call with stage } ∨ other ∈ stakes.calls := by simpa using hother
    rcases hcase with rfl | hother
    · exact hsound.held.backed call (by simp)
    · exact hsound.held.backed other (by simp [hother])
  · intro other hne
    simp
  · intro other hne
    have hmoved : (Stakes.making { call with stage }).callsOn other = 0 :=
      Stakes.callsOn_making_of_ne hne.symm
    simp only [Stakes.callsOn_add, hnone, Stakes.callsOn_making_of_ne hne.symm, hmoved]
  · have hcalls : (Stakes.unitsOn (Effect.losses effect) +
        (.making { call with stage } + stakes)).callsOn call.cell =
          { call with stage } ::ₘ stakes.callsOn call.cell := by
      rw [Stakes.callsOn_add, Stakes.callsOn_add, hnone, zero_add, ← Multiset.singleton_add]
      exact congrArg (· + _) (Stakes.callsOn_making { call with stage })
    have hvisits : (Stakes.unitsOn (Effect.losses effect) +
        (.making { call with stage } + stakes)).visited =
          (Stakes.unitsOn (Effect.gains effect) + (.making call + stakes)).visited := by
      simp
    rw [hcalls, hvisits]
    exact hbefore.step hstep

/-- What a call keeps until all is done that it leads to. -/
theorem callsOn_kept (call : Call) (stakes : Stakes) (name : String) :
    (Stakes.usesOf call.holders + (.visitTo call.cell + stakes)).callsOn name =
      stakes.callsOn name := by
  rw [Stakes.callsOn_add, Stakes.callsOn_add,
    Stakes.callsOn_of_calls (Stakes.usesOf_parts _).2.2.2.1,
    Stakes.callsOn_of_calls (Stakes.visitTo_parts _).2.2.2.1, zero_add, zero_add]

/-- A call that has its outcome hands out its units, and goes on using its handles and its cell. -/
theorem finishCall {outcome : Outcome} (hsound : world.Sound (.making call + stakes))
    (hfinished : call.stage = .finished outcome) :
    world.Sound (.unitsOn ↑outcome.units +
      (.usesOf call.holders + (.visitTo call.cell + stakes))) where
  books := by
    simpa [hfinished, Stage.units] using hsound.books
  held := by
    refine hsound.held.mono (by simp) (by simp) ?_
    intro other hother
    have hmem : other ∈ stakes.calls := by simpa using hother
    exact hsound.held.backed other (by simp [hmem])
  raws := hsound.raws
  housed := by
    refine hsound.housed.restake (by simp) ?_
    intro name cell hcell
    have hbefore := hsound.housed.sound name cell hcell
    rw [Stakes.callsOn_add, Stakes.callsOn_of_calls (Stakes.unitsOn_parts _).2.2.2.1, zero_add,
      callsOn_kept]
    rw [Stakes.callsOn_add] at hbefore
    by_cases hname : call.cell = name
    · subst hname
      rw [Stakes.callsOn_making, Multiset.singleton_add] at hbefore
      exact hbefore.finish hfinished
    · rwa [Stakes.callsOn_making_of_ne hname, zero_add] at hbefore
  scripts := hsound.scripts

/-- A cell that a call has frozen. -/
theorem freezeCell (hsound : world.Sound (.making call + stakes))
    (haction : call.action = .freeze) (hfinished : call.stage = .finished .done) :
    (world.modifyCell call.cell ({ · with kind := .atomic })).Sound
      (.usesOf call.holders + (.visitTo call.cell + stakes)) := by
  obtain ⟨cell, hcell⟩ := hsound.housed.present call.cell (by simp)
  refine hsound.modifyCell hcell ?_ ?_ ?_ ?_ ?_
  · simp [hfinished, Stage.units, Outcome.units]
  · refine hsound.held.mono (by simp) (by simp) ?_
    intro other hother
    have hmem : other ∈ stakes.calls := by simpa using hother
    exact hsound.held.backed other (by simp [hmem])
  · intro other _
    simp
  · intro other hne
    rw [callsOn_kept, Stakes.callsOn_add, Stakes.callsOn_making_of_ne hne.symm, zero_add]
  · have hbefore := hsound.housed.sound call.cell cell hcell
    rw [Stakes.callsOn_add, Stakes.callsOn_making, Multiset.singleton_add] at hbefore
    have hfrozen := hbefore.frozen haction hfinished
    rw [callsOn_kept]
    simpa using hfrozen

end Sound

end World

end SharedCell
