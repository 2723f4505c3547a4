import SharedCell.Payload
import SharedCell.Text.Layout
import SharedCell.Text.Quoted
import SharedCell.Text.Shape

/-!
# Texts of payloads

The debug text of a payload quotes its texts and spreads its lists where the layout is pretty.
The display text shows texts as they are and keeps lists on one line.  The hash of a payload is
that of its plain display text.
-/

namespace SharedCell.Payload

open Text

mutual

def shape (layout : Layout) : Payload → Shape
  | .null => .leaf "()"
  | .bool value => .leaf (layout.word (if value then "true" else "false"))
  | .int value => .leaf (layout.number value)
  | .text value => .leaf (quoted value)
  | .list items => .list (shapes layout items)

def shapes (layout : Layout) : List Payload → List Shape
  | [] => []
  | item :: items => shape layout item :: shapes layout items

end

mutual

def display (layout : Layout) : Payload → String
  | .null => "()"
  | .bool value => layout.word (if value then "true" else "false")
  | .int value => layout.number value
  | .text value => layout.word value
  | .list items => "[" ++ ", ".intercalate (displays layout items) ++ "]"

def displays (layout : Layout) : List Payload → List String
  | [] => []
  | item :: items => display layout item :: displays layout items

end

/-- The 64-bit FNV-1a hash of a sequence of bytes. -/
def fnv1a (bytes : List UInt8) : UInt64 :=
  bytes.foldl (fun hash byte => (hash ^^^ byte.toUInt64) * 0x100000001b3) 0xcbf29ce484222325

/-- The hash in sixteen hexadecimal digits. -/
def hashText (payload : Payload) : String :=
  let digits := Nat.toDigits 16 (fnv1a (display {} payload).toUTF8.toList).toNat
  String.ofList (List.replicate (16 - digits.length) '0' ++ digits)

end SharedCell.Payload
