/-!
# Layouts of leaves

A layout says how the leaves of a text are written: the base, sign and padding of numbers, and
the padding and cutting of words.  It is chosen by name, and debug texts and display texts have
different names to choose from.
-/

namespace SharedCell.Text

inductive Base where
  | decimal
  | hex (upper : Bool)
  deriving DecidableEq

/-- Padding with `zeros` fills a number with zeros behind its sign and a word with spaces behind its
end; padding on the `left` fills both with spaces in front. -/
inductive Padding where
  | none
  | zeros (width : Nat)
  | left (width : Nat)
  deriving DecidableEq

structure Layout where
  /-- Structures are spread over lines, and hexadecimal numbers bear `0x`. -/
  pretty : Bool := false
  base : Base := .decimal
  plus : Bool := false
  padding : Padding := .none
  cut : Option Nat := none
  deriving DecidableEq

namespace Layout

def debugNamed? : String → Option Layout
  | "plain" => some {}
  | "alt" => some { pretty := true }
  | "hex" => some { base := .hex false }
  | "HEX" => some { base := .hex true }
  | "althex" => some { pretty := true, base := .hex false }
  | "zero5" => some { padding := .zeros 5 }
  | "plus" => some { plus := true }
  | "right8" => some { padding := .left 8 }
  | _ => none

def displayNamed? : String → Option Layout
  | "plain" => some {}
  | "alt" => some { pretty := true }
  | "zero5" => some { padding := .zeros 5 }
  | "plus" => some { plus := true }
  | "right8" => some { padding := .left 8 }
  | "prec2" => some { cut := some 2 }
  | _ => none

def fill (char : Char) (width : Nat) (text : String) : String :=
  String.ofList (List.replicate (width - text.length) char)

/-- Writes a text that is not a number. -/
def word (layout : Layout) (text : String) : String :=
  let shown := match layout.cut with
    | some length => String.ofList (text.toList.take length)
    | none => text
  match layout.padding with
  | .none => shown
  | .zeros width => shown ++ fill ' ' width shown
  | .left width => fill ' ' width shown ++ shown

def digits : Base → Nat → String
  | .decimal, value => String.ofList (Nat.toDigits 10 value)
  | .hex false, value => String.ofList (Nat.toDigits 16 value)
  | .hex true, value => String.ofList ((Nat.toDigits 16 value).map Char.toUpper)

/-- Writes a number.  Hexadecimal digits are those of its 64-bit two's complement, so they never
bear a sign. -/
def number (layout : Layout) (value : Int) : String :=
  let (sign, body) : String × String := match layout.base with
    | .decimal =>
        (if value < 0 then "-" else if layout.plus then "+" else "", digits .decimal value.natAbs)
    | base =>
        (if layout.pretty then "0x" else "", digits base (value % 0x10000000000000000).toNat)
  match layout.padding with
  | .none => sign ++ body
  | .zeros width => sign ++ fill '0' width (sign ++ body) ++ body
  | .left width => fill ' ' width (sign ++ body) ++ sign ++ body

end Layout

end SharedCell.Text
