import Chaperone.Text.Unprintable

/-!
# Texts in double quotes, as diagnostics show them

A quoted text stands on one line: a double quote, a backslash, the common control characters and
everything unprintable are written as escapes, and all other characters stand for themselves.
-/

namespace Chaperone.Text

/-- A lower-case hexadecimal digit. -/
def hexDigit (n : Nat) : Char := Char.ofNat (if n < 10 then 48 + n else 87 + n)

/-- The lower-case hexadecimal digits of a number, without leading zeros. -/
def hex (n : Nat) : String := String.ofList (Nat.toDigits 16 n)

/-- How one character of a quoted text is written. -/
def quotedChar (c : Char) : String :=
  match c with
  | '"' => "\\\""
  | '\\' => "\\\\"
  | '\n' => "\\n"
  | '\r' => "\\r"
  | '\t' => "\\t"
  | '\x00' => "\\0"
  | c =>
    if 0x20 ≤ c.toNat && c.toNat < 0x7F then String.singleton c
    else if isUnprintable c then "\\u\x7b" ++ hex c.toNat ++ "\x7d"
    else String.singleton c

/-- A text in double quotes. -/
def quoted (text : String) : String :=
  "\"" ++ text.foldl (fun done c => done ++ quotedChar c) "" ++ "\""

end Chaperone.Text
