import Chaperone.Machine.Shell.State

/-!
# Commands inside the shell

A builtin is a command that the shell carries out itself.  One that fails badly leaves the shell;
whoever ran it decides whether the shell really ends.
-/

namespace Chaperone.Machine.Shell

open Routine

/-- A command that the shell carries out itself: given its arguments, it gives the shell with the
status of the command. -/
abbrev Builtin := Session → List String → Routine Session

namespace Builtin

/-- Complains and goes on. -/
def complain (sh : Session) (text : String) (status : Nat) : Routine Session := do
  sh.complain text
  return sh.withStatus status

/-- Writes what a command prints. -/
def print (sh : Session) (text : String) (status : Nat) : Routine Session := do
  if text.isEmpty then return sh.withStatus status
  match ← Routine.write 1 (toBytes text) with
  | .ok _ => return sh.withStatus status
  | .error _ => complain sh (sh.command.getD "" ++ ": I/O error") 1

/-- The number that an argument writes with nothing but digits. -/
def number? (text : String) : Option Nat :=
  if !text.isEmpty && text.all Char.isDigit then
    some (text.toList.foldl (fun n c => n * 10 + (c.toNat - 48)) 0)
  else none

/-- What is said about an argument that should be a number. -/
def illegalNumber (text : String) : String := "Illegal number: " ++ text

/-- An option with its argument, if it takes one. -/
abbrev Choice := Char × Option String

/-- The letters of one argument.  Gives the option at the end that waits for its argument. -/
def choices (known : List Char) (letters : List Char) (found : List Choice) :
    Except String (List Choice × Option Char) :=
  match letters with
  | [] => .ok (found, none)
  | c :: rest =>
    match known.dropWhile (· != c) with
    | [] => .error ("Illegal option -" ++ String.singleton c)
    | _ :: ':' :: _ =>
      if rest.isEmpty then .ok (found, some c)
      else .ok (found ++ [(c, some (String.ofList rest))], none)
    | _ => choices known rest (found ++ [(c, none)])

/-- The options before the other arguments.  Behind the letter of one that takes an argument,
`known` has a colon. -/
def optionsOf (known : String) (found : List Choice) :
    List String → Except String (List Choice × List String)
  | [] => .ok (found, [])
  | "--" :: rest => .ok (found, rest)
  | arg :: rest =>
    match arg.toList with
    | '-' :: c :: letters => do
      let (found, waiting) ← choices known.toList (c :: letters) found
      match waiting, rest with
      | none, rest => optionsOf known found rest
      | some c, value :: rest => optionsOf known (found ++ [(c, some value)]) rest
      | some c, [] => .error ("No arg for -" ++ String.singleton c ++ " option")
    | _ => .ok (found, arg :: rest)

/-- Takes the options off the arguments of a command. -/
def withOptions (known : String) (sh : Session) (args : List String)
    (use : List Choice → List String → Routine Session) : Routine Session :=
  match optionsOf known [] args with
  | .ok (found, rest) => use found rest
  | .error text => sh.abort text

/-- Characters in quotes that the shell reads back: single quotes around a run without any, double
quotes around a run of single ones. -/
def quotedRuns (fuel : Nat) (text : List Char) : List Char :=
  match fuel with
  | 0 => []
  | fuel + 1 =>
    let plain := text.takeWhile (· != '\'')
    let rest := text.drop plain.length
    let quotes := rest.takeWhile (· == '\'')
    let rest := rest.drop quotes.length
    '\'' :: plain ++ '\'' :: (if quotes.isEmpty then [] else '"' :: quotes ++ ['"']) ++
      if rest.isEmpty then [] else quotedRuns fuel rest

/-- A text in quotes that the shell reads back. -/
def quoted (text : String) : String :=
  String.ofList (quotedRuns (text.length + 1) text.toList)

end Builtin

end Chaperone.Machine.Shell
