import Chaperone.Machine.Tool.Basic

/-!
# One-line scripts of system calls

`perl -e` runs a script that is given as an argument.  Here a script is a row of calls: it sets the
size of a pipe, writes a text as a whole (possibly many times over), sleeps or ends.
-/

namespace Chaperone.Machine

namespace Tool

open Routine

/-- A part of a script. -/
inductive ScriptToken where
  | word (text : String)
  | number (value : Nat)
  | text (content : String)
  | mark (c : Char)
  deriving DecidableEq, Repr, Inhabited

/-- A statement of a script. -/
inductive ScriptStatement where
  /-- Sets how many bytes the pipe of an open file holds. -/
  | resize (fd size : Nat)
  | write (fd : Nat) (content : String)
  | sleep (seconds : Nat)
  | exit (code : Nat)
  deriving DecidableEq, Repr, Inhabited

namespace ScriptStatement

/-- The parts of a script.  A text has no escapes; one part uses one unit of fuel. -/
def tokens : Nat → List Char → Option (List ScriptToken)
  | _, [] => some []
  | 0, _ => none
  | fuel + 1, c :: rest =>
    if c.isWhitespace then tokens fuel rest
    else if c.isDigit then
      let digits := (c :: rest).takeWhile Char.isDigit
      let value := digits.foldl (fun n c => n * 10 + (c.toNat - 48)) 0
      (tokens fuel ((c :: rest).drop digits.length)).map (.number value :: ·)
    else if c.isAlpha then
      let letters := (c :: rest).takeWhile Char.isAlpha
      (tokens fuel ((c :: rest).drop letters.length)).map (.word (String.ofList letters) :: ·)
    else if c == '\'' || c == '"' then
      let content := rest.takeWhile (· != c)
      if content.length < rest.length then
        (tokens fuel (rest.drop (content.length + 1))).map (.text (String.ofList content) :: ·)
      else none
    else (tokens fuel rest).map (.mark c :: ·)

/-- The open file that a script calls by a name. -/
def handle? : String → Option Nat
  | "STDOUT" => some 1
  | "STDERR" => some 2
  | _ => none

/-- The request that sets the size of a pipe. -/
def setPipeSize : Nat := 1031

/-- The first statement of a script, and what follows it. -/
def first? : List ScriptToken → Option (ScriptStatement × List ScriptToken)
  | .word "fcntl" :: .mark '(' :: .word name :: .mark ',' :: .number request :: .mark ',' ::
      .number size :: .mark ')' :: rest =>
    if request = setPipeSize then (handle? name).map fun fd => (.resize fd size, rest) else none
  | .word "syswrite" :: .mark '(' :: .word name :: .mark ',' :: .text content :: .word "x" ::
      .number times :: .mark ')' :: rest =>
    (handle? name).map fun fd =>
      (.write fd (String.join (List.replicate times content)), rest)
  | .word "syswrite" :: .mark '(' :: .word name :: .mark ',' :: .text content :: .mark ')' ::
      rest => (handle? name).map fun fd => (.write fd content, rest)
  | .word "sleep" :: .number seconds :: rest => some (.sleep seconds, rest)
  | .word "exit" :: .number code :: rest => some (.exit code, rest)
  | _ => none

/-- The statements of a script, with a semicolon between any two. -/
def all? : Nat → List ScriptToken → Option (List ScriptStatement)
  | _, [] => some []
  | 0, _ => none
  | fuel + 1, .mark ';' :: rest => all? fuel rest
  | fuel + 1, tokens =>
    match first? tokens with
    | some (statement, []) => some [statement]
    | some (statement, .mark ';' :: rest) => (all? fuel rest).map (statement :: ·)
    | _ => none

/-- The statements of a text. -/
def read? (script : String) : Option (List ScriptStatement) :=
  (tokens script.length script.toList).bind fun parts => all? (parts.length + 1) parts

/-- Does what a statement says. -/
def run : ScriptStatement → Routine Unit
  | .resize fd size => do let _ ← ask (.resizePipe fd size)
  | .write fd content => do let _ ← Routine.write fd (toBytes content)
  | .sleep seconds => do let _ ← ask (.sleep (seconds * 1000000))
  | .exit code => Routine.exit code

/-- Does what some statements say, one after the other. -/
def runAll : List ScriptStatement → Routine Unit
  | [] => return
  | statement :: rest => do
    statement.run
    runAll rest

end ScriptStatement

def perl : Tool := fun args _ => do
  match args.drop 1 with
  | "-e" :: script :: _ =>
    match ScriptStatement.read? script with
    | some statements => ScriptStatement.runAll statements
    | none => fail "syntax error at -e line 1.\nExecution of -e aborted due to compilation errors." 255
  | _ => fail "No code specified for -e." 2

end Tool

end Chaperone.Machine
