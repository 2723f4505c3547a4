import SharedCell.Text.Unseen

/-!
# Quoted texts

A text in double quotes.  Quotes and backslashes, the usual control characters and every
character that would not be seen as itself are escaped; a single quote is not.
-/

namespace SharedCell.Text

def escapeChar (char : Char) : String :=
  match char with
  | '\x00' => "\\0"
  | '\t' => "\\t"
  | '\n' => "\\n"
  | '\r' => "\\r"
  | '\"' => "\\\""
  | '\\' => "\\\\"
  | _ =>
      if isUnseen char then
        "\\u\x7b" ++ String.ofList (Nat.toDigits 16 char.toNat) ++ "\x7d"
      else
        String.singleton char

def quoted (text : String) : String :=
  "\"" ++ String.join (text.toList.map escapeChar) ++ "\""

end SharedCell.Text
