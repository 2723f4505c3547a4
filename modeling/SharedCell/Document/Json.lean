import SharedCell.Document

/-!
# The JSON text of documents

Reads and writes documents.  What is read must be one JSON value of at most 127 nested containers;
of fields of one name the last one counts.  A surrogate without its partner is no character, and a
number beyond the range of binary floating point numbers of 64 bits is refused.
-/

namespace SharedCell.Document

/-! ## Reading -/

def isBlank (char : Char) : Bool :=
  char == ' ' || char == '\t' || char == '\n' || char == '\r'

def skipBlanks (chars : List Char) : List Char :=
  chars.dropWhile isBlank

def hexValue? (char : Char) : Option Nat :=
  if '0' ≤ char && char ≤ '9' then some (char.toNat - '0'.toNat)
  else if 'a' ≤ char && char ≤ 'f' then some (char.toNat - 'a'.toNat + 10)
  else if 'A' ≤ char && char ≤ 'F' then some (char.toNat - 'A'.toNat + 10)
  else none

def hexUnit? (digits : List Char) : Option Nat :=
  digits.foldlM (fun value digit => (hexValue? digit).map (16 * value + ·)) 0

def isHighSurrogate (unit : Nat) : Bool := 0xd800 ≤ unit && unit < 0xdc00

def isLowSurrogate (unit : Nat) : Bool := 0xdc00 ≤ unit && unit < 0xe000

/-- Reads a text behind its opening quote; `read` holds what was read so far, in reverse. -/
def readText? (read : List Char) : List Char → Option (String × List Char)
  | [] => none
  | '\"' :: rest => some (String.ofList read.reverse, rest)
  | '\\' :: '\"' :: rest => readText? ('\"' :: read) rest
  | '\\' :: '\\' :: rest => readText? ('\\' :: read) rest
  | '\\' :: '/' :: rest => readText? ('/' :: read) rest
  | '\\' :: 'b' :: rest => readText? ('\x08' :: read) rest
  | '\\' :: 'f' :: rest => readText? ('\x0c' :: read) rest
  | '\\' :: 'n' :: rest => readText? ('\n' :: read) rest
  | '\\' :: 'r' :: rest => readText? ('\r' :: read) rest
  | '\\' :: 't' :: rest => readText? ('\t' :: read) rest
  | '\\' :: 'u' :: a :: b :: c :: d :: rest =>
      match hexUnit? [a, b, c, d] with
      | none => none
      | some unit =>
          if isHighSurrogate unit then
            match rest with
            | '\\' :: 'u' :: e :: f :: g :: h :: rest =>
                match hexUnit? [e, f, g, h] with
                | none => none
                | some low =>
                    if isLowSurrogate low then
                      let code := 0x10000 + (unit - 0xd800) * 0x400 + (low - 0xdc00)
                      readText? (Char.ofNat code :: read) rest
                    else
                      none
            | _ => none
          else if isLowSurrogate unit then none
          else readText? (Char.ofNat unit :: read) rest
  | '\\' :: _ => none
  | char :: rest => if char.toNat < 0x20 then none else readText? (char :: read) rest

def decimal (digits : List Char) : Nat :=
  digits.foldl (fun value digit => 10 * value + (digit.toNat - '0'.toNat)) 0

/-- Appends digits to a number for as long as it fits an unsigned word of 64 bits, and counts the
digits that are left out. -/
def appendDigits (value : Nat) : List Char → Nat × Nat
  | [] => (value, 0)
  | digit :: digits =>
      let next := 10 * value + (digit.toNat - '0'.toNat)
      if next < 2 ^ 64 then appendDigits next digits else (value, digits.length + 1)

/-- The nearest number of at most `precision` significant bits; a tie goes to the even one. -/
def nearestBinary (precision value : Nat) : Nat :=
  let unit := Nat.pow 2 (value.log2 + 1 - precision)
  let quotient := value / unit
  let rest := value % unit
  if unit < 2 * rest || (unit == 2 * rest && quotient % 2 == 1) then (quotient + 1) * unit
  else quotient * unit

/-- Whether a number is finite as a product of two binary floating point numbers of 64 bits: of its
leading digits as far as they fit a word, and of the power of ten that stands for the others. -/
def isFinite (whole places : List Char) (exponent : Int) : Bool :=
  let (value, left) := appendDigits 0 whole
  let (value, unread) := appendDigits value places
  let exponent := exponent + left + unread - places.length
  value == 0 || exponent ≤ 0 || (exponent ≤ 308 &&
    nearestBinary 53 value * nearestBinary 53 (Nat.pow 10 exponent.toNat) <
      Nat.pow 2 1024 - Nat.pow 2 970)

/-- Reads the digits behind a sign of an exponent. -/
def readExponent? (chars : List Char) : Option (Int × List Char) :=
  let (negative, chars) : Bool × List Char := match chars with
    | '-' :: rest => (true, rest)
    | '+' :: rest => (false, rest)
    | _ => (false, chars)
  let (digits, rest) := chars.span Char.isDigit
  if digits.isEmpty then none
  else some (if negative then -(decimal digits : Int) else decimal digits, rest)

def readNumber? (chars : List Char) : Option (Document × List Char) := do
  let (negative, chars) : Bool × List Char := match chars with
    | '-' :: rest => (true, rest)
    | _ => (false, chars)
  let (whole, rest) := chars.span Char.isDigit
  if whole.isEmpty || (1 < whole.length && whole.head? == some '0') then none
  let (places, rest) ← match rest with
    | '.' :: rest =>
        let (places, rest) := rest.span Char.isDigit
        if places.isEmpty then none else some (some places, rest)
    | _ => some (none, rest)
  let (exponent, rest) ← match rest with
    | 'e' :: rest | 'E' :: rest => do
        let (exponent, rest) ← readExponent? rest
        pure (some exponent, rest)
    | _ => some (none, rest)
  let value : Int := if negative then -(decimal whole : Int) else decimal whole
  if places.isNone && exponent.isNone && !(negative && value == 0)
      && -0x8000000000000000 ≤ value && value < 0x10000000000000000 then
    pure (.int value, rest)
  else if isFinite whole (places.getD []) (exponent.getD 0) then
    pure (.number, rest)
  else
    none

def readWord? (word : String) (doc : Document) (chars : List Char) :
    Option (Document × List Char) :=
  if word.toList.isPrefixOf chars then some (doc, chars.drop word.length) else none

/-- Puts a field in front of those that follow it, unless one of them has its name. -/
def addField (key : String) (value : Document) (fields : List (String × Document)) :
    List (String × Document) :=
  if (fields.lookup key).isSome then fields else (key, value) :: fields

mutual

/-- Reads one value; `fuel` bounds the number of values and separators, `depth` the nesting. -/
def readValue? (fuel depth : Nat) (chars : List Char) : Option (Document × List Char) :=
  match fuel with
  | 0 => none
  | fuel + 1 =>
      match skipBlanks chars with
      | '\"' :: rest => (readText? [] rest).map fun (read, rest) => (.text read, rest)
      | '[' :: rest =>
          if depth = 0 then none
          else
            match skipBlanks rest with
            | ']' :: rest => some (.list [], rest)
            | rest => (readItems? fuel (depth - 1) rest).map fun (items, rest) =>
                (.list items, rest)
      | '\x7b' :: rest =>
          if depth = 0 then none
          else
            match skipBlanks rest with
            | '\x7d' :: rest => some (.object [], rest)
            | rest => (readFields? fuel (depth - 1) rest).map fun (fields, rest) =>
                (.object fields, rest)
      | 'n' :: rest => readWord? "null" .null ('n' :: rest)
      | 't' :: rest => readWord? "true" (.bool true) ('t' :: rest)
      | 'f' :: rest => readWord? "false" (.bool false) ('f' :: rest)
      | chars => readNumber? chars

def readItems? (fuel depth : Nat) (chars : List Char) : Option (List Document × List Char) :=
  match fuel with
  | 0 => none
  | fuel + 1 =>
      match readValue? fuel depth chars with
      | none => none
      | some (item, rest) =>
          match skipBlanks rest with
          | ']' :: rest => some ([item], rest)
          | ',' :: rest =>
              (readItems? fuel depth rest).map fun (items, rest) => (item :: items, rest)
          | _ => none

def readFields? (fuel depth : Nat) (chars : List Char) :
    Option (List (String × Document) × List Char) :=
  match fuel with
  | 0 => none
  | fuel + 1 =>
      match skipBlanks chars with
      | '\"' :: rest =>
          match readText? [] rest with
          | none => none
          | some (key, rest) =>
              match skipBlanks rest with
              | ':' :: rest =>
                  match readValue? fuel depth rest with
                  | none => none
                  | some (value, rest) =>
                      match skipBlanks rest with
                      | '\x7d' :: rest => some ([(key, value)], rest)
                      | ',' :: rest =>
                          (readFields? fuel depth rest).map fun (fields, rest) =>
                            (addField key value fields, rest)
                      | _ => none
              | _ => none
      | _ => none

end

def ofJson? (text : String) : Option Document :=
  let chars := text.toList
  match readValue? (chars.length + 1) 127 chars with
  | some (doc, rest) => if (skipBlanks rest).isEmpty then some doc else none
  | none => none

/-! ## Writing -/

def jsonChar (char : Char) : String :=
  match char with
  | '\"' => "\\\""
  | '\\' => "\\\\"
  | _ =>
      if char.toNat < 0x20 then
        let digits := Nat.toDigits 16 char.toNat
        "\\u" ++ String.ofList (List.replicate (4 - digits.length) '0' ++ digits)
      else
        String.singleton char

def jsonText (text : String) : String :=
  "\"" ++ String.join (text.toList.map jsonChar) ++ "\""

mutual

/-- Appends the text of a document to a text. -/
def appendJson (text : String) : Document → String
  | .null | .number => text ++ "null"
  | .bool value => text ++ (if value then "true" else "false")
  | .int value => text ++ toString value
  | .text value => text ++ jsonText value
  | .list [] => text ++ "[]"
  | .list (item :: items) => appendItems (appendJson (text ++ "[") item) items ++ "]"
  | .object [] => text ++ "\x7b\x7d"
  | .object ((key, value) :: fields) =>
      appendFields (appendJson (text ++ "\x7b" ++ jsonText key ++ ":") value) fields ++ "\x7d"

def appendItems (text : String) : List Document → String
  | [] => text
  | item :: items => appendItems (appendJson (text ++ ",") item) items

def appendFields (text : String) : List (String × Document) → String
  | [] => text
  | (key, value) :: fields =>
      appendFields (appendJson (text ++ "," ++ jsonText key ++ ":") value) fields

end

def toJson (doc : Document) : String :=
  appendJson "" doc

end SharedCell.Document
