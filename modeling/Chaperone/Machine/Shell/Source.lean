import Chaperone.Machine.Shell.Command

/-!
# The text of a script

A script is read from its beginning.  The documents that begin in a line stand behind the end of
that line, so the reader makes a detour around them when it gets there.
-/

namespace Chaperone.Machine.Shell

/-- What is left of a script, and the number of its first line. -/
structure Source where
  text : List Char
  line : Nat := 1
  /-- Where reading goes on after the end of the line, if not behind it, and the line there. -/
  detour : Option (List Char × Nat) := none
  /-- Whether a document has begun whose end is not there. -/
  openEnd : Bool := false
  deriving Inhabited

/-- Why a script cannot be read, and in which line. -/
structure Complaint where
  line : Nat
  text : String
  /-- Whether more text might make it right. -/
  early : Bool
  deriving Inhabited

namespace Source

/-- The source after some characters. -/
def advance (s : Source) (count : Nat) : Source :=
  { s with text := s.text.drop count, line := s.line + (s.text.take count).count '\n' }

/-- The source after the newline at its beginning. -/
def nextLine (s : Source) : Source :=
  match s.detour with
  | some (text, line) => { text, line, openEnd := s.openEnd }
  | none => s.advance 1

/-- A complaint about the present place. -/
def complain {α : Type} (s : Source) (text : String) : Except Complaint α :=
  .error ⟨s.line, text, s.text.isEmpty⟩

/-- A complaint about something that has begun at the present place and does not end. -/
def complainOpen {α : Type} (s : Source) (text : String) : Except Complaint α :=
  .error ⟨s.line, text, true⟩

end Source

/-- The characters that separate words. -/
def separators : List Char := " \t\n;&|<>()".toList

/-- Skips blanks, comments and joined lines. -/
def skipBlanks (fuel : Nat) (s : Source) : Source :=
  match fuel with
  | 0 => s
  | fuel + 1 =>
    match s.text with
    | ' ' :: _ | '\t' :: _ => skipBlanks fuel (s.advance 1)
    | '\\' :: '\n' :: _ => skipBlanks fuel (s.advance 2)
    | '#' :: rest => s.advance (1 + (rest.takeWhile (· != '\n')).length)
    | _ => s

/-- The characters before a backquote, and those after it.  A backslash stands before a backquote,
a dollar sign or a backslash that is meant for the script inside, and inside double quotes also
before a double quote. -/
def backquoted (inQuotes : Bool) (done : List Char) : List Char → Option (List Char × List Char)
  | [] => none
  | '\x60' :: rest => some (done.reverse, rest)
  | '\\' :: '\n' :: rest => backquoted inQuotes done rest
  | '\\' :: c :: rest =>
    if c == '\x60' || c == '$' || c == '\\' || (inQuotes && c == '"') then
      backquoted inQuotes (c :: done) rest
    else backquoted inQuotes (c :: '\\' :: done) rest
  | c :: rest => backquoted inQuotes (c :: done) rest

/-- The characters that are parameters by themselves. -/
def specialParameters : List Char := "?$!#@*-".toList

/-- The name of a parameter at the beginning of a text. -/
def parameterName : List Char → Option String
  | [] => none
  | c :: rest =>
    if beginsName c then some (String.ofList (c :: rest.takeWhile continuesName))
    else if c.isDigit || specialParameters.contains c then some (String.singleton c)
    else none

/-- The name of a parameter in braces; its number may have more than one digit. -/
def parameterNameInBraces (text : List Char) : Option String :=
  let digits := text.takeWhile Char.isDigit
  if digits.isEmpty then parameterName text else some (String.ofList digits)

/-- How a parameter in braces is used, how many characters say so, and whether a pattern
follows. -/
def useOf : List Char → Use × Nat × Bool
  | ':' :: '-' :: _ => (.orElse true, 2, false)
  | ':' :: '=' :: _ => (.assign true, 2, false)
  | ':' :: '+' :: _ => (.instead true, 2, false)
  | ':' :: '?' :: _ => (.require true, 2, false)
  | '-' :: _ => (.orElse false, 1, false)
  | '=' :: _ => (.assign false, 1, false)
  | '+' :: _ => (.instead false, 1, false)
  | '?' :: _ => (.require false, 1, false)
  | '#' :: '#' :: _ => (.without false true, 2, true)
  | '#' :: _ => (.without false false, 1, true)
  | '%' :: '%' :: _ => (.without true true, 2, true)
  | '%' :: _ => (.without true false, 1, true)
  | _ => (.unknown, 0, false)

/-! ## Documents -/

/-- The word that ends a document, with whether anything in it was quoted, and the source after
it. -/
def delimiter (fuel : Nat) (quote : Option Char) (quoted : Bool) (done : List Char) (s : Source) :
    String × Bool × Source :=
  match fuel with
  | 0 => (String.ofList done.reverse, quoted, s)
  | fuel + 1 =>
    match quote, s.text with
    | _, [] => (String.ofList done.reverse, quoted, s)
    | some q, c :: _ =>
      if c == q then delimiter fuel none true done (s.advance 1)
      else delimiter fuel quote quoted (c :: done) (s.advance 1)
    | none, '\\' :: c :: _ => delimiter fuel none true (c :: done) (s.advance 2)
    | none, c :: _ =>
      if c == '\'' || c == '"' then delimiter fuel (some c) true done (s.advance 1)
      else if separators.contains c then (String.ofList done.reverse, quoted, s)
      else delimiter fuel none quoted (c :: done) (s.advance 1)

/-- A document, and where reading goes on behind it. -/
structure Document where
  body : List Char
  after : List Char
  line : Nat
  /-- Whether the line that ends it is there. -/
  closed : Bool

/-- The document that begins in a line.  With `strip`, tabs at the beginning of its lines do not
count. -/
def documentAt (fuel : Nat) (strip : Bool) (last : String) (done : List (List Char))
    (text : List Char) (line : Nat) : Document :=
  match fuel with
  | 0 => { body := done.reverse.flatten, after := text, line, closed := false }
  | fuel + 1 =>
    if text.isEmpty then { body := done.reverse.flatten, after := [], line, closed := false }
    else
      let first := text.takeWhile (· != '\n')
      let after := text.drop (first.length + 1)
      let shown := if strip then first.dropWhile (· == '\t') else first
      if shown = last.toList then
        { body := done.reverse.flatten, after, line := line + 1, closed := true }
      else
        let ended := if first.length < text.length then shown ++ ['\n'] else shown
        documentAt fuel strip last (ended :: done) after (line + 1)

/-! ## Tokens -/

/-- A token. -/
inductive Token where
  | finish
  | newline
  | operator (text : String)
  | redirection (fd : Nat) (direction : Direction) (strip : Bool)
  | word (word : Word)
  deriving Inhabited

/-- A word that is written without quotes and has nothing to look up. -/
def bare? : Word → Option String
  | [.text text false] => some text
  | _ => none

namespace Token

/-- The reserved word that a token is. -/
def reserved? : Token → Option String
  | .word w => (bare? w).filter (reserved.contains ·)
  | _ => none

/-- A name in quotes. -/
def quote (name : String) : String := "\"" ++ name ++ "\""

/-- What a token is called in complaints.  A reserved word is named only where it could count as
one. -/
def describe (t : Token) (inPlace : Bool) : String :=
  match t with
  | .finish => "end of file"
  | .newline => "newline"
  | .operator text => quote text
  | .redirection _ _ _ => "redirection"
  | .word w =>
    match Token.reserved? (.word w) with
    | some text => if inPlace then quote text else "word"
    | none => "word"

/-- Whether a token ends a list of commands. -/
def endsList (t : Token) : Bool :=
  match t with
  | .finish => true
  | .operator text => text == ")" || text == ";;"
  | _ => ["do", "done", "elif", "else", "esac", "fi", "then", "\x7d"].any (t.reserved? == some ·)

end Token

/-- A redirection operator: its width, what it does, the open file that it redirects, and whether
tabs are stripped from the document. -/
def redirectionOf : List Char → Option (Nat × Direction × Nat × Bool)
  | '<' :: '<' :: '-' :: _ => some (3, .document, 0, true)
  | '<' :: '<' :: _ => some (2, .document, 0, false)
  | '<' :: '&' :: _ => some (2, .duplicate, 0, false)
  | '<' :: '>' :: _ => some (2, .readWrite, 0, false)
  | '<' :: _ => some (1, .read, 0, false)
  | '>' :: '&' :: _ => some (2, .duplicate, 1, false)
  | '>' :: '>' :: _ => some (2, .append, 1, false)
  | '>' :: '|' :: _ => some (2, .overwrite, 1, false)
  | '>' :: _ => some (1, .write, 1, false)
  | _ => none

/-- The next token, if it is not a word: the token and its width. -/
def mark? (text : List Char) : Option (Token × Nat) :=
  match text with
  | [] => some (.finish, 0)
  | '\n' :: _ => some (.newline, 1)
  | '&' :: '&' :: _ => some (.operator "&&", 2)
  | '|' :: '|' :: _ => some (.operator "||", 2)
  | ';' :: ';' :: _ => some (.operator ";;", 2)
  | c :: rest =>
    if c == '&' || c == '|' || c == ';' || c == '(' || c == ')' then
      some (.operator (String.singleton c), 1)
    else
      let (numbered, rest) := if c.isDigit then (true, rest) else (false, text)
      (redirectionOf rest).map fun (width, direction, fd, strip) =>
        if numbered then (.redirection (c.toNat - 48) direction strip, width + 1)
        else (.redirection fd direction strip, width)

/-- A word that sets a variable. -/
def settingOf : Word → Option (String × Word)
  | .text text false :: rest =>
    let name := text.toList.takeWhile (· != '=')
    match text.toList.drop name.length with
    | '=' :: value =>
      if isName (String.ofList name) then
        some (String.ofList name,
          if value.isEmpty then rest else .text (String.ofList value) false :: rest)
      else none
    | _ => none
  | _ => none

/-- Adds a text to pieces, the last of which comes first. -/
def addText (text : String) (quoted : Bool) : List Piece → List Piece
  | .text before q :: rest =>
    if q = quoted then .text (before ++ text) quoted :: rest
    else .text text quoted :: .text before q :: rest
  | pieces => .text text quoted :: pieces

end Chaperone.Machine.Shell
