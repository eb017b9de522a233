import Chaperone.Document.Datum

/-!
# JSON in its compact written form

There is no space between tokens, members stand in the order of the value, and a string escapes
only what JSON forbids inside quotes: the quote, the backslash and the control characters.  So a
written value never contains a newline, and one value fits on one line.
-/

namespace Chaperone.Json

open Number Text

/-- The two lower-case hexadecimal digits of a control character. -/
def controlEscape (c : Char) : String :=
  "\\u00" ++ String.singleton (hexDigit (c.toNat / 16)) ++
    String.singleton (hexDigit (c.toNat % 16))

/-- How one character of a string is written. -/
def escapeChar (c : Char) : String :=
  match c with
  | '"' => "\\\""
  | '\\' => "\\\\"
  | '\n' => "\\n"
  | '\r' => "\\r"
  | '\t' => "\\t"
  | '\x08' => "\\b"
  | '\x0c' => "\\f"
  | c => if c.toNat < 0x20 then controlEscape c else String.singleton c

/-- A string with its quotes. -/
def quote (text : String) : String :=
  "\"" ++ text.foldl (fun done c => done ++ escapeChar c) "" ++ "\""

mutual

/-- The written form of a value. -/
def render : Datum → String
  | .null => "null"
  | .bool true => "true"
  | .bool false => "false"
  | .int n => toString n
  | .float negative size => (if negative then "-" else "") ++ size.render .compact
  | .notANumber | .beyond => "null"
  | .string s => quote s
  | .array items => "[" ++ renderItems items ++ "]"
  | .object members => "\x7b" ++ renderMembers members ++ "\x7d"

/-- The values of an array with commas between them. -/
def renderItems : List Datum → String
  | [] => ""
  | [item] => render item
  | item :: rest => render item ++ "," ++ renderItems rest

/-- The members of an object with commas between them. -/
def renderMembers : List (String × Datum) → String
  | [] => ""
  | [(name, value)] => quote name ++ ":" ++ render value
  | (name, value) :: rest => quote name ++ ":" ++ render value ++ "," ++ renderMembers rest

end

end Chaperone.Json
