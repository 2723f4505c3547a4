import Mathlib
import SharedCell.Proofs.Cell.Exchange
import SharedCell.Proofs.Crew.CallRuns

/-!
# Exchanges of crews

Whatever all threads do from the first step of an exchange on, the exchange ends as its guard and
what it finds in the cell say.
-/

namespace SharedCell.Crew

variable {β : Type} [Resident β]

/-- An exchange is not disturbed by what other calls store while it does not hold the lock. -/
theorem preserved_exchanges {action : Action} {expected : Option (Option ObjectId)}
    {new : Option ObjectId} {observe : Bool} (hexchange : action.Exchange expected new observe)
    (asked : List Stage) :
    Preserved action (Stage.Exchanges action expected new observe asked) where
  own _ _ _ _ _ _ _ _ _ _ hexchanges hstep := hexchanges.step hexchange hstep
  others _ _ _ _ hlock hexchanges := hexchanges.turn hlock _

theorem Sound.exchanged [Lawful β] {crew : Crew β} {thread : ℕ} {below : List Frame} {call : Call}
    {cell : Cell} {expected : Option (Option ObjectId)} {new : Option ObjectId} {observe : Bool}
    (hsound : crew.Sound) (hagenda : crew.agendas[thread]? = some (.call call :: below))
    (hcell : crew.world.cell? call.cell = some cell)
    (hopening : call.stage = call.action.opening cell.kind)
    (hexchange : call.action.Exchange expected new observe) :
    crew.EndsAs (call.action.Exchanged cell.kind expected new observe) thread call below := by
  have hregister := World.register?_of_cell hcell
  have hat : crew.At (Stage.Exchanges call.action expected new observe
      (call.action.askings cell.kind)) thread call below [] := by
    refine ⟨[], call.stage, cell.slot.register, hagenda, hregister, ?_⟩
    rw [hopening]
    exact Stage.exchanges_opening hexchange cell.kind cell.slot.register
  refine (hsound.endsAs (preserved_exchanges hexchange _) hat).mono fun record outcome hended => ?_
  obtain ⟨register, hexchanges⟩ := hended
  exact hexchanges.ended hexchange

end SharedCell.Crew
