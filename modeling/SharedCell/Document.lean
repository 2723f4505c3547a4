/-!
# Documents

The trees that requests and answers are made of.  Of a number only its being an integer of one
machine word matters.  No object has two fields of one name.
-/

namespace SharedCell

inductive Document where
  | null
  | bool (value : Bool)
  /-- An integer that fits a signed or an unsigned word of 64 bits. -/
  | int (value : Int)
  /-- Any other number. -/
  | number
  | text (value : String)
  | list (items : List Document)
  | object (fields : List (String × Document))
  deriving Inhabited

namespace Document

def field? (doc : Document) (key : String) : Option Document :=
  match doc with
  | .object fields => fields.lookup key
  | _ => none

def text? (doc : Document) (key : String) : Option String :=
  match doc.field? key with
  | some (.text value) => some value
  | _ => none

def nat? (doc : Document) (key : String) : Option Nat :=
  match doc.field? key with
  | some (.int (.ofNat value)) => some value
  | _ => none

def items? (doc : Document) (key : String) : Option (List Document) :=
  match doc.field? key with
  | some (.list items) => some items
  | _ => none

theorem sizeOf_lt_of_lookup {key : String} {value : Document} {fields : List (String × Document)}
    (hlookup : fields.lookup key = some value) : sizeOf value < sizeOf fields := by
  induction fields with
  | nil => simp at hlookup
  | cons field fields ih =>
      rcases field with ⟨name, other⟩
      rw [List.lookup_cons] at hlookup
      simp only [List.cons.sizeOf_spec, Prod.mk.sizeOf_spec]
      split at hlookup
      · cases hlookup
        omega
      · have := ih hlookup
        omega

theorem sizeOf_lt_of_mem_items {doc item : Document} {key : String} {items : List Document}
    (hitems : doc.items? key = some items) (hmem : item ∈ items) : sizeOf item < sizeOf doc := by
  have hitem := List.sizeOf_lt_of_mem hmem
  unfold items? field? at hitems
  cases doc with
  | object fields =>
      simp only at hitems
      split at hitems
      · rename_i found hlookup
        cases hitems
        have := sizeOf_lt_of_lookup hlookup
        simp only [object.sizeOf_spec, list.sizeOf_spec] at this ⊢
        omega
      · contradiction
  | _ => simp at hitems

end Document

end SharedCell
