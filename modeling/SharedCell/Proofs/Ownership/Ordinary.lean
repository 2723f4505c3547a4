import Mathlib
import SharedCell.Agenda

/-!
# Ordinary operations

Races and stress runs are not operations of the crate: they arrange for calls to interleave, and
put what two threads did into one order afterwards.  All other operations are ordinary if those that
they lead to are.
-/

namespace SharedCell

namespace Operation

mutual

def ordinary : Operation → Bool
  | .alloc _ _ _ _ script => ordinaryAll script
  | .rounds _ (some body) => ordinaryAll body
  | .race .. | .stress .. => false
  | _ => true

def ordinaryAll : List Operation → Bool
  | [] => true
  | op :: ops => ordinary op && ordinaryAll ops

end

@[simp]
theorem ordinaryAll_cons (op : Operation) (ops : List Operation) :
    ordinaryAll (op :: ops) = true ↔ op.ordinary = true ∧ ordinaryAll ops = true := by
  rw [ordinaryAll, Bool.and_eq_true]

end Operation

namespace Chore

def ordinary : Chore → Bool
  | .join | .resume => false
  | _ => true

end Chore

namespace Frame

/-- A frame that leads to ordinary operations only. -/
def ordinary : Frame → Bool
  | .tidy chores _ => chores.all Chore.ordinary
  | .script _ ops => Operation.ordinaryAll ops
  | .rounds _ body ops _ => Operation.ordinaryAll body && Operation.ordinaryAll ops
  | .race _ | .stress _ => false
  | .call _ | .mutate .. | .surrender _ => true

end Frame

end SharedCell
