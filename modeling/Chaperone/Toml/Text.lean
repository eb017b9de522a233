import Chaperone.Text.Utf8

/-!
# Keys and strings of TOML

Each reader gives what it read from the start of a text and the text after it.

A string stands in one or three quotes.  Double quotes allow escapes, single quotes do not; three
quotes allow line breaks, which are read as newlines however they are written.
-/

namespace Chaperone.Toml

/-- Tab or space. -/
def isBlank (c : Char) : Bool := c == ' ' || c == '\t'

/-- The text after tabs and spaces. -/
def skipBlanks (text : List Char) : List Char := text.dropWhile isBlank

/-- The text after a line break, if it starts with one. -/
def newline? : List Char → Option (List Char)
  | '\n' :: rest => some rest
  | '\r' :: '\n' :: rest => some rest
  | _ => none

/-- Whether a character may stand in a comment or between quotes: all but the control characters
other than tab. -/
def isVisible (c : Char) : Bool := c == '\t' || (0x20 ≤ c.toNat && c.toNat ≠ 0x7F)

/-- The text after a comment, if it starts with one. -/
def skipComment : List Char → List Char
  | '#' :: rest => rest.dropWhile isVisible
  | text => text

/-- The text after blanks, line breaks and comments; none if a comment holds what it may not. -/
def skipLines (fuel : Nat) (text : List Char) : Option (List Char) :=
  match fuel with
  | 0 => some text
  | fuel + 1 =>
    match skipBlanks text with
    | '#' :: rest =>
      match skipComment ('#' :: rest) with
      | [] => some []
      | rest => (newline? rest).bind (skipLines fuel)
    | rest =>
      match newline? rest with
      | some rest => skipLines fuel rest
      | none => some rest

/-! ## Strings -/

/-- The value of a hexadecimal digit. -/
def hexDigit? (c : Char) : Option Nat :=
  if '0' ≤ c && c ≤ '9' then some (c.toNat - 48)
  else if 'a' ≤ c && c ≤ 'f' then some (c.toNat - 87)
  else if 'A' ≤ c && c ≤ 'F' then some (c.toNat - 55)
  else none

/-- The character with a code of `count` hexadecimal digits. -/
def codePoint : Nat → Nat → List Char → Option (Char × List Char)
  | 0, code, text => if h : code.isValidChar then some (Char.ofNatAux code h, text) else none
  | count + 1, code, c :: rest =>
    (hexDigit? c).bind fun d => codePoint count (code * 16 + d) rest
  | _ + 1, _, [] => none

/-- What an escape stands for, read after its backslash. -/
def escape : List Char → Option (Char × List Char)
  | 'b' :: rest => some ('\x08', rest)
  | 't' :: rest => some ('\t', rest)
  | 'n' :: rest => some ('\n', rest)
  | 'f' :: rest => some ('\x0c', rest)
  | 'r' :: rest => some ('\r', rest)
  | '"' :: rest => some ('"', rest)
  | '\\' :: rest => some ('\\', rest)
  | 'u' :: rest => codePoint 4 0 rest
  | 'U' :: rest => codePoint 8 0 rest
  | _ => none

/-- The rest of a string in double quotes, after the first one. -/
def basicString (fuel : Nat) (read : String) (text : List Char) : Option (String × List Char) :=
  match fuel with
  | 0 => none
  | fuel + 1 =>
    match text with
    | '"' :: rest => some (read, rest)
    | '\\' :: rest => (escape rest).bind fun (c, rest) => basicString fuel (read.push c) rest
    | c :: rest => if isVisible c then basicString fuel (read.push c) rest else none
    | [] => none

/-- The rest of a string in single quotes, after the first one. -/
def literalString (read : String) : List Char → Option (String × List Char)
  | '\'' :: rest => some (read, rest)
  | c :: rest => if isVisible c then literalString (read.push c) rest else none
  | [] => none

/-- The end of a string in three quotes: up to two more of them belong to the string. -/
def closeLong (quote : Char) (read : String) : List Char → Option (String × List Char)
  | a :: b :: rest =>
    if a = quote && b = quote then some ((read.push quote).push quote, rest)
    else if a = quote then some (read.push quote, b :: rest)
    else some (read, a :: b :: rest)
  | [a] => if a = quote then some (read.push quote, []) else some (read, [a])
  | [] => some (read, [])

/-- The text after a backslash at the end of a line and all blanks and line breaks that follow. -/
def continued (fuel : Nat) (text : List Char) : List Char :=
  match fuel with
  | 0 => text
  | fuel + 1 =>
    let rest := skipBlanks text
    match newline? rest with
    | some rest => continued fuel rest
    | none => rest

/-- The rest of a string in three quotes, after the opening ones. -/
def longString (quote : Char) (fuel : Nat) (read : String) (text : List Char) :
    Option (String × List Char) :=
  match fuel with
  | 0 => none
  | fuel + 1 =>
    match text with
    | [] => none
    | c :: rest =>
      if c = quote then
        match rest with
        | a :: b :: after =>
          if a = quote && b = quote then closeLong quote read after
          else longString quote fuel (read.push c) rest
        | _ => none
      else if c = '\\' && quote = '"' then
        match newline? (skipBlanks rest) with
        | some after => longString quote fuel read (continued after.length after)
        | none => (escape rest).bind fun (c, rest) => longString quote fuel (read.push c) rest
      else
        match newline? text with
        | some rest => longString quote fuel (read.push '\n') rest
        | none => if isVisible c then longString quote fuel (read.push c) rest else none

/-- A line break right after the opening quotes does not count. -/
def afterOpening (text : List Char) : List Char := (newline? text).getD text

/-- A string. -/
def string? (text : List Char) : Option (String × List Char) :=
  match text with
  | '"' :: '"' :: '"' :: rest =>
    let rest := afterOpening rest
    longString '"' (rest.length + 1) "" rest
  | '\'' :: '\'' :: '\'' :: rest =>
    let rest := afterOpening rest
    longString '\'' (rest.length + 1) "" rest
  | '"' :: rest => basicString (rest.length + 1) "" rest
  | '\'' :: rest => literalString "" rest
  | _ => none

/-! ## Keys -/

/-- Whether a character may stand in a key without quotes. -/
def isKeyChar (c : Char) : Bool :=
  ('a' ≤ c && c ≤ 'z') || ('A' ≤ c && c ≤ 'Z') || ('0' ≤ c && c ≤ '9') || c == '_' || c == '-'

/-- One part of a key. -/
def keyPart (text : List Char) : Option (String × List Char) :=
  match text with
  | '"' :: rest => basicString (rest.length + 1) "" rest
  | '\'' :: rest => literalString "" rest
  | _ =>
    let part := text.takeWhile isKeyChar
    if part.isEmpty then none else some (String.ofList part, text.dropWhile isKeyChar)

/-- A key: parts with points between them.  The blanks after it belong to it. -/
def key (fuel : Nat) (text : List Char) : Option (List String × List Char) :=
  match fuel with
  | 0 => none
  | fuel + 1 => do
    let (part, rest) ← keyPart (skipBlanks text)
    match skipBlanks rest with
    | '.' :: rest =>
      let (parts, rest) ← key fuel rest
      return (part :: parts, rest)
    | rest => return ([part], rest)

end Chaperone.Toml
