import Mathlib
import SharedCell.Proofs.Ownership.Persistence

/-!
# Sole units

An operation that changes a payload has its handle to itself.  As long as the object counts a single
unit, nothing but the handle owns it, no call is on its way to it, and no step of another thread
does anything to the object: there is no handle left to acquire or freeze it through, and no unit
left to release.
-/

namespace SharedCell

variable {β : Type} [Resident β]

namespace Phase

/-- The content that a reader has copied and not yet acquired. -/
def copied? : Phase → Option ObjectId
  | .pinning _ content _ | .parting _ content _ | .acquiring _ content _ => some content
  | _ => none

end Phase

/-- A content that was copied is still there, or is owned by the call that displaced it. -/
theorem Cell.Sound.copied_kept {cell : Cell} {visits : ℕ} {calls : Multiset Call}
    {facts : ObjectId → Facts} {call : Call} {obj : ObjectId}
    (hsound : cell.Sound visits calls facts) (hcall : call ∈ calls)
    (hcopied : call.stage.phase.copied? = some obj) :
    cell.slot.content = some obj ∨ ∃ other ∈ calls, obj ∈ other.stage.units := by
  cases hphase : call.stage.phase with
  | pinning purpose content version =>
    rw [hphase] at hcopied
    obtain rfl := Option.some.inj hcopied
    obtain ⟨listed, hlisted, hslot⟩ := hsound.slot
    have hmem : call.stage.phase ∈ listed := by
      rw [← Multiset.mem_coe, hlisted]
      exact Multiset.mem_map_of_mem (fun call : Call => call.stage.phase) hcall
    exact .inl (hslot.copied purpose content version (hphase ▸ hmem)).1
  | parting purpose content version =>
    rw [hphase] at hcopied
    obtain rfl := Option.some.inj hcopied
    exact hsound.pinned_kept hcall (by rw [hphase]; rfl)
  | acquiring purpose content version =>
    rw [hphase] at hcopied
    obtain rfl := Option.some.inj hcopied
    exact hsound.pinned_kept hcall (by rw [hphase]; rfl)
  | _ =>
    rw [hphase] at hcopied
    cases hcopied

namespace World.Sound

variable {world next : World β} {stakes : Stakes} {holder thread : ℕ} {obj : ObjectId}
  {object : Object β} {agenda later : List Frame}

/-- Whoever else would have a unit on the object, there is one handle on it, and that is in
exclusive use. -/
theorem sole_handle (hsound : world.Sound (.changing holder obj + stakes))
    (hobject : world.object? obj = some object) (hcount : Resident.count object.body = 1) :
    ∃ own ∈ world.holders, own.id = holder ∧ own.unit = obj ∧ own.exclusive = true ∧
      own.users = 1 ∧ ∀ other ∈ world.holders, other.unit = obj → other = own := by
  obtain ⟨own, hown, hid, hunit, hexclusive, husers⟩ := hsound.held.exclusive holder obj (by simp)
  refine ⟨own, hown, hid, hunit, hexclusive, husers, ?_⟩
  intro other hother hsame
  by_contra hne
  have hids : other.id ≠ own.id := fun heq => hne (hsound.held.unique hown hother heq)
  have htwo := Held.two_units hown hother hids (hsame.trans hunit.symm)
  have htotal := (hsound.single hobject hcount).2
  rw [Multiset.count_add, World.owned, Multiset.count_add, Multiset.count_add, Multiset.count_add,
    Multiset.coe_count] at htotal
  rw [hunit] at htwo
  omega

/-- No call is about to acquire the object. -/
theorem not_acquires {call : Call} (hsound : world.Sound (.changing holder obj + stakes))
    (hobject : world.object? obj = some object) (hcount : Resident.count object.body = 1)
    (hcall : call ∈ stakes.calls) : ¬ call.Acquires world obj := by
  rintro ⟨cell, slot, stage, hcell, hstep⟩
  obtain ⟨hcontent, hcarried⟩ := hsound.sole_unit hobject hcount
  rcases hsound.kept_of_acquired (by simpa using hcall) (mem_of_lookup hcell) hstep with
    hheld | ⟨other, hother, hfits, hcarries⟩
  · exact hcontent call.cell cell (mem_of_lookup hcell) hheld
  · exact hcarried other (by simpa using hother) hfits hcarries

/-- No two operations change payloads through one handle. -/
theorem not_twice {other : ObjectId}
    (hsound : world.Sound (.changing holder obj + (.changing holder other + stakes))) : False := by
  obtain ⟨own, hown, hid, -, -, husers⟩ := hsound.held.exclusive holder obj (by simp)
  have htwice := hsound.held.users own hown
  rw [husers, Stakes.used_add, Stakes.used_add, (Stakes.changing_parts holder obj).2.1,
    (Stakes.changing_parts holder other).2.1, Multiset.count_add, Multiset.count_add, hid,
    Multiset.count_singleton_self] at htwice
  omega

/-- A step of another thread leaves the object as it is. -/
theorem spared [Lawful β] (hsound : world.Sound (stakesOf agenda + (.changing holder obj + stakes)))
    (hordinary : ∀ frame ∈ agenda, frame.ordinary = true)
    (hobject : world.object? obj = some object) (hcount : Resident.count object.body = 1)
    (hstep : Frame.step thread world agenda = some (next, later)) :
    ∃ after, next.object? obj = some after ∧ after.body = object.body := by
  have hworld : world.Sound (.changing holder obj + (stakesOf agenda + stakes)) :=
    add_left_comm (stakesOf agenda) _ _ ▸ hsound
  obtain ⟨own, -, -, -, hexclusive, -, hsole⟩ := hworld.sole_handle hobject hcount
  have hcounted := (hworld.single hobject hcount).1
  have hshared : ∀ other ∈ world.holders, other.exclusive = false → ¬ other.unit = obj := by
    intro other hother hfree hunit
    rw [hsole other hother hunit, hexclusive] at hfree
    cases hfree
  have hacquired : ∀ call below other, agenda = .call call :: below →
      call.Acquires world other → ¬ other = obj := by
    rintro call below other rfl hacquires rfl
    have hcall : call ∈ (stakesOf (.call call :: below) + stakes).calls := by
      rw [Stakes.add_calls, Multiset.mem_add]
      exact .inl (Stakes.mem_calls_of_mem List.mem_cons_self)
    exact hworld.not_acquires hobject hcount hcall hacquires
  rcases Frame.tends_or_granted (· = obj) hordinary hshared hacquired hstep with
    htends | ⟨other, target, payload, below, found, rfl, hfound, hsingle, rfl⟩
  · obtain ⟨after, hafter, htended⟩ := htends obj object hobject
    rcases htended.spared rfl hcounted hcount with hsame | hgone
    · exact ⟨after, hafter, hsame⟩
    -- the handle still has its unit, so that nobody destroyed the object
    · have hlater := (Frame.step_stepped hsound hordinary hstep).1
      obtain ⟨own, hown, -, hunit, -⟩ := hlater.held.exclusive holder obj (by simp)
      have howned := owned_of_holder hown
      rw [hunit] at howned
      obtain ⟨found, hfound, hlive, -⟩ :=
        hlater.books.live (Multiset.mem_add.mpr (.inl howned))
      rw [World.object?] at hafter
      rw [hafter] at hfound
      obtain rfl := Option.some.inj hfound
      rw [hlive] at hgone
      cases hgone
  · have hne : target ≠ obj := by
      rintro rfl
      have hother : world.Sound (.changing other target +
          (stakesOf below + (.changing holder target + stakes))) := by
        rw [stakesOf_cons, add_assoc] at hsound
        exact hsound
      obtain ⟨own, -, hid, -, -, -, hsole⟩ := hworld.sole_handle hobject hcount
      obtain ⟨its, hits, hitsId, hunit, -⟩ := hother.held.exclusive other target (by simp)
      have hsame : other = holder := by
        rw [← hitsId, hsole its hits hunit, hid]
      subst hsame
      rw [add_left_comm (stakesOf below)] at hother
      exact hother.not_twice
    refine ⟨object, ?_, rfl⟩
    rw [World.object?, Books.getElem?_modifyObject, if_neg hne]
    exact hobject

end World.Sound

end SharedCell
