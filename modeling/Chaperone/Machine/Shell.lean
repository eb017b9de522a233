import Chaperone.Machine.Shell.Run

/-!
# The shell as a program

It takes its commands from an argument, a file or standard input.
-/

namespace Chaperone.Machine.Shell

open Routine

/-- How deep scripts may be nested, and how long they may run. -/
def depth : Nat := 100000000

/-- Runs a whole script.  With `whole`, all of it is known from the beginning. -/
def script (whole : Bool) (text : String) (sh : Session) : Routine Unit := do
  let sh ← runSource depth { exits := whole } { text := text.toList.filter (· ≠ '\x00') } sh
  finish depth sh

/-- How much of a script is read at a time. -/
def blockSize : Nat := 8192

/-- Runs a script while it is read.  With `complete`, nothing more can be read. -/
def follow (fuel fd : Nat) (complete : Bool) (s : Source) (sh : Session) : Routine Session :=
  match fuel with
  | 0 => return sh
  | fuel + 1 => do
    let line := readLine s
    let early := match line with
      | .error complaint => complaint.early
      | .ok line => !line.complete
    if early && !complete then
      match ← ask (.read fd blockSize) with
      | .ok (b :: bytes) =>
        let more := (ofBytes (b :: bytes)).toList.filter (· ≠ '\x00')
        follow fuel fd false { s with text := s.text ++ more } sh
      | _ => follow fuel fd true s sh
    else
      match line with
      | .error complaint => ({ sh with line := complaint.line }).abort complaint.text
      | .ok line =>
        match line.command with
        | none => return sh
        | some c =>
          let sh ← run depth {} c sh
          if sh.leaving.isSome then return sh else follow fuel fd complete line.rest sh

/-- The shell, given its arguments and variables. -/
def tool (args : List String) (vars : Variables) : Routine Unit := do
  let name := args.headD "sh"
  let refuse {α : Type} (text : String) : Routine α := do
    say 2 (name ++ ": 0: " ++ text ++ "\n")
    exit 2
  match ← Builtin.settle true [] (args.drop 1) with
  | .error text => refuse text
  | .ok s =>
    if s.fromText then
      match s.rest with
      | [] => refuse "-c requires an argument"
      | text :: more =>
        script true text (← Session.start (more.headD name) (more.drop 1) s.options vars)
    else if s.rest.isEmpty || s.options.contains 's' then
      let options := 's' :: s.options.filter (· != 's')
      let sh ← Session.start name s.rest options vars
      finish depth (← follow rounds 0 false { text := [] } sh)
    else
      match s.rest with
      | [] => exit 0
      | path :: more =>
        match ← ask (.openFile path .read) with
        | .error errno =>
          let gone := errno = Errno.noEntry || errno = Errno.notDirectory
          refuse ("cannot open " ++ path ++ ": " ++ (if gone then "No such file" else reason errno))
        | .ok fd =>
          let bytes ← readAll fd
          let _ ← ask (.close fd)
          match bytes with
          | .ok bytes => script false (ofBytes bytes) (← Session.start path more s.options vars)
          | .error _ => exit 2

end Chaperone.Machine.Shell
