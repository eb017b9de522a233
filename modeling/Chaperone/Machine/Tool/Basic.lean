import Chaperone.Machine.Routine

/-!
# Tools

A tool is a program that every machine of this kind has.  It is given its arguments (the first one
is its own name) and its variables.
-/

namespace Chaperone.Machine

/-- A program. -/
abbrev Tool := List String → Variables → Routine Unit

namespace Tool

open Routine

/-- Complains and ends with a code. -/
def fail {α : Type} (complaint : String) (code : Nat) : Routine α := do
  say 2 (complaint ++ "\n")
  exit code

/-- Complains about how the tool was called. -/
def misuse {α : Type} (tool complaint : String) : Routine α :=
  fail (tool ++ ": " ++ complaint ++ "\nTry '" ++ tool ++ " --help' for more information.") 1

/-- Does something with each of the files that are named, or with standard input.  Gives the exit
code. -/
def eachFile (tool : String) (names : List String) (use : Nat → Routine (Except Errno Unit)) :
    Routine Nat :=
  let rec go (code : Nat) : List String → Routine Nat
    | [] => return code
    | name :: rest => do
      let complain (errno : Errno) : Routine Nat := do
        say 2 (tool ++ ": " ++ name ++ ": " ++ reason errno ++ "\n")
        go 1 rest
      if name = "-" then
        match ← use 0 with
        | .ok () => go code rest
        | .error errno => complain errno
      else
        match ← ask (.openFile name .read) with
        | .error errno => complain errno
        | .ok fd =>
          match ← use fd with
          | .ok () =>
            let _ ← ask (.close fd)
            go code rest
          | .error errno => complain errno
  go 0 (if names.isEmpty then ["-"] else names)

/-- The arguments that are files. -/
def operands (args : List String) : List String :=
  let rec go : List String → List String
    | [] => []
    | "--" :: rest => rest
    | a :: rest => if a.startsWith "-" && a ≠ "-" then go rest else a :: go rest
  go (args.drop 1)

/-- Whether an option of one letter is given. -/
def hasOption (args : List String) (letter : Char) : Bool :=
  (args.drop 1).any fun a =>
    a.startsWith "-" && !a.startsWith "--" && (a.toList.drop 1).contains letter

/-- Makes a request for each operand and complains about those that fail. -/
def eachOperand (names : List String) (use : String → Routine (Except Errno Unit))
    (complaint : String → String) (quiet : Errno → Bool) : Routine Unit :=
  let rec go (code : Nat) : List String → Routine Unit
    | [] => exit code
    | name :: rest => do
      match ← use name with
      | .ok () => go code rest
      | .error errno =>
        if quiet errno then go code rest
        else
          say 2 (complaint name ++ reason errno ++ "\n")
          go 1 rest
  go 0 names

end Tool

end Chaperone.Machine
