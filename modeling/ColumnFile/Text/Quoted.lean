import ColumnFile.Text.Visible

/-! # Quoted texts

A text between double quotes. A quote and a backslash stand behind a backslash, the usual controls
have a letter, and every other hidden character is given by its code point in hexadecimal digits.

* `Text.escape` — one character of a quoted text.
* `Text.quote` — a quoted text.
* `Text.brackets` — a list of texts in brackets.
-/

namespace ColumnFile

namespace Text

/-- The digits of a number to base 16, in small letters. -/
def hexDigits (n : Nat) : String := String.ofList (Nat.toDigits 16 n)

/-- One character of a quoted text. -/
def escape (c : Char) : String :=
  match c with
  | '"' => "\\\""
  | '\\' => "\\\\"
  | '\n' => "\\n"
  | '\r' => "\\r"
  | '\t' => "\\t"
  | _ =>
    if c.toNat = 0 then "\\0"
    else if isVisible c then c.toString
    else "\\u\x7b" ++ hexDigits c.toNat ++ "\x7d"

/-- A text between double quotes. -/
def quote (s : String) : String :=
  "\"" ++ String.join (s.toList.map escape) ++ "\""

/-- Texts in brackets, with commas between them. -/
def brackets (items : List String) : String :=
  "[" ++ ", ".intercalate items ++ "]"

end Text

end ColumnFile
