/-!
# Shapes

A debug text before it is laid out: leaves within lists, tuples and records.  A shape is written
on one line, or with one item per line, each item four spaces deeper than what holds it and
followed by a comma.
-/

namespace SharedCell.Text

inductive Shape where
  | leaf (text : String)
  | list (items : List Shape)
  | tuple (name : String) (items : List Shape)
  | record (name : String) (fields : List (String × Shape))
  deriving Inhabited

namespace Shape

mutual

def inline : Shape → String
  | .leaf text => text
  | .list items => "[" ++ ", ".intercalate (inlineItems items) ++ "]"
  | .tuple name items => name ++ "(" ++ ", ".intercalate (inlineItems items) ++ ")"
  | .record name fields =>
      name ++ " \x7b " ++ ", ".intercalate (inlineFields fields) ++ " \x7d"

def inlineItems : List Shape → List String
  | [] => []
  | item :: items => inline item :: inlineItems items

def inlineFields : List (String × Shape) → List String
  | [] => []
  | (label, item) :: fields => (label ++ ": " ++ inline item) :: inlineFields fields

end

def indentation (depth : Nat) : String :=
  String.ofList (List.replicate (4 * depth) ' ')

/-- Items between brackets, the opening one at the given depth. -/
def block (depth : Nat) (opening closing : String) (items : List String) : String :=
  opening ++ "\n" ++
    String.join (items.map fun item => indentation (depth + 1) ++ item ++ ",\n") ++
    indentation depth ++ closing

mutual

def spread (depth : Nat) : Shape → String
  | .leaf text => text
  | .list [] => "[]"
  | .list items => block depth "[" "]" (spreadItems (depth + 1) items)
  | .tuple name items => block depth (name ++ "(") ")" (spreadItems (depth + 1) items)
  | .record name fields =>
      block depth (name ++ " \x7b") "\x7d" (spreadFields (depth + 1) fields)

def spreadItems (depth : Nat) : List Shape → List String
  | [] => []
  | item :: items => spread depth item :: spreadItems depth items

def spreadFields (depth : Nat) : List (String × Shape) → List String
  | [] => []
  | (label, item) :: fields =>
      (label ++ ": " ++ spread depth item) :: spreadFields depth fields

end

def render (pretty : Bool) (shape : Shape) : String :=
  if pretty then spread 0 shape else inline shape

end Shape

end SharedCell.Text
