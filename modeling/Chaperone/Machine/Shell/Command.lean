/-!
# Commands of the shell

What a line of a script says, before anything in it is looked up.
-/

namespace Chaperone.Machine.Shell

/-- What becomes of a parameter.  With `emptyToo`, an empty value counts as none. -/
inductive Use where
  | value
  /-- The other text, if there is no value. -/
  | orElse (emptyToo : Bool)
  /-- The same, and the text becomes the value. -/
  | assign (emptyToo : Bool)
  /-- The other text, if there is a value. -/
  | instead (emptyToo : Bool)
  /-- A value is required. -/
  | require (emptyToo : Bool)
  /-- The length of the value. -/
  | length
  /-- The value without the part at its beginning, or with `atEnd` at its end, that the other text
  matches as a pattern. -/
  | without (atEnd longest : Bool)
  /-- Nothing that can be carried out. -/
  | unknown
  deriving DecidableEq, Repr, Inhabited

/-- What a redirection does. -/
inductive Direction where
  | read
  | write
  /-- The same, even if files must not be overwritten. -/
  | overwrite
  | append
  | readWrite
  /-- The word names an open file, or closes with `-`. -/
  | duplicate
  /-- The word is the text to read. -/
  | document
  deriving DecidableEq, Repr, Inhabited

mutual

/-- A piece of a word. -/
inductive Piece where
  | text (text : String) (quoted : Bool)
  | parameter (name : String) (use : Use) (other : List Piece) (quoted : Bool)
  /-- The output of a command. -/
  | output (command : Command) (quoted : Bool)
  /-- The value of an expression. -/
  | arithmetic (expression : List Piece) (quoted : Bool)

/-- A redirection of an open file. -/
inductive Redirection where
  | of (fd : Nat) (direction : Direction) (target : List Piece)

/-- A command. -/
inductive Command where
  | nothing
  | simple (line : Nat) (settings : List (String × List Piece)) (words : List (List Piece))
      (redirections : List Redirection)
  | pipeline (parts : List Command)
  | negated (command : Command)
  | both (first second : Command)
  | either (first second : Command)
  | sequence (first second : Command)
  | background (command : Command)
  | subshell (line : Nat) (body : Command) (redirections : List Redirection)
  | redirected (line : Nat) (body : Command) (redirections : List Redirection)
  | branch (condition body otherwise : Command)
  /-- Runs the body as long as the condition succeeds, or with `inverted` as long as it fails. -/
  | loop (inverted : Bool) (condition body : Command)
  /-- Runs the body for each of some words, or of the arguments. -/
  | each (line : Nat) (name : String) (words : Option (List (List Piece))) (body : Command)
  /-- Runs the command of the first case one of whose patterns matches the word. -/
  | choice (line : Nat) (word : List Piece) (cases : List (List (List Piece) × Command))
  /-- Gives a name to a command. -/
  | define (name : String) (body : Command)

end

instance : Inhabited Piece := ⟨.text "" false⟩

instance : Inhabited Command := ⟨.nothing⟩

instance : Inhabited Redirection := ⟨.of 0 .read []⟩

/-- A word. -/
abbrev Word := List Piece

/-- Whether a name may begin with a character. -/
def beginsName (c : Char) : Bool := c.isAlpha || c == '_'

/-- Whether a name may go on with a character. -/
def continuesName (c : Char) : Bool := c.isAlphanum || c == '_'

/-- Whether a text is the name of a variable. -/
def isName (text : String) : Bool :=
  match text.toList with
  | [] => false
  | c :: rest => beginsName c && rest.all continuesName

/-- The words that begin, divide or end commands. -/
def reserved : List String :=
  ["!", "case", "do", "done", "elif", "else", "esac", "fi", "for", "if", "in", "then", "until",
    "while", "\x7b", "\x7d"]

/-- The builtins that no function can replace and whose failure ends the shell. -/
def specialBuiltins : List String :=
  [".", ":", "break", "continue", "eval", "exec", "exit", "export", "local", "readonly", "return",
    "set", "shift", "times", "trap", "unset"]

end Chaperone.Machine.Shell
