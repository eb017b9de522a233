import Chaperone.Machine.Printf
import Chaperone.Machine.Shell.Builtin.Signals
import Chaperone.Machine.Shell.Search
import Chaperone.Machine.Shell.Test

/-!
# The builtins

Those that run further commands are not among them.
-/

namespace Chaperone.Machine.Shell.Builtin

open Routine

def echo : Builtin := fun sh args =>
  let (newline, args) := match args with
    | "-n" :: rest => (false, rest)
    | args => (true, args)
  let (text, ended) := Printf.unescaped (" ".intercalate args)
  print sh (if newline && !ended then text ++ "\n" else text) 0

/-- What is said about an argument that should be a number. -/
def flawText : Printf.Flaw → String
  | .notNumber => "expected numeric value"
  | .unfinished => "not completely converted"
  | .outOfRange => "Numerical result out of range"

def printf : Builtin := fun sh args =>
  withOptions "" sh args fun _ args => do
    match args with
    | [] => sh.abort "usage: printf format [arg ...]"
    | format :: rest =>
      let p := Printf.print format rest
      p.wrong.forM fun (text, flaw) => sh.complain (text ++ ": " ++ flawText flaw)
      let sh ← print sh p.text (if p.wrong.isEmpty then 0 else 1)
      match p.failure with
      | some text => sh.abort text
      | none => return sh

/-! ## Directories -/

/-- The names on the way to a directory, in which two dots lead back. -/
def wayTo (place : List String) (path : String) : List String :=
  (Files.split path).foldl (fun place name =>
    if name = "." then place else if name = ".." then place.dropLast else place ++ [name])
    (if path.startsWith "/" then [] else place)

def pwd : Builtin := fun sh args =>
  withOptions "LP" sh args fun found _ => do
    let directory ← if (found.getLast?.map (·.1)) = some 'P' then ask .currentDirectory
      else pure ((sh.value? "PWD").getD "")
    print sh (directory ++ "\n") 0

/-- Tries to go to a directory, also below those in which it may be looked for.  Gives the path
that was found, if it was looked for. -/
def goTo (physical : Bool) (here path : String) : List String → Routine (Option (String × Bool))
  | [] => return none
  | entry :: rest => do
    let path' := if entry.isEmpty then path
      else if entry.endsWith "/" then entry ++ path else entry ++ "/" ++ path
    let way := Files.path (wayTo (Files.split here) path')
    match ← ask (.changeDirectory (if physical || path'.isEmpty then path' else way)) with
    | .ok () =>
      let directory ← if physical then ask .currentDirectory else pure way
      return some (directory, !entry.isEmpty)
    | .error _ => goTo physical here path rest

def cd : Builtin := fun sh args =>
  withOptions "LP" sh args fun found args => do
    let (path, loud) := match args with
      | [] => ((sh.value? "HOME").getD "", false)
      | "-" :: _ => ((sh.value? "OLDPWD").getD "", true)
      | path :: _ => (path, false)
    let path := if path.isEmpty then "." else path
    let fixed := ["/", "./", "../"].any (path.startsWith ·) || path = "." || path = ".."
    let entries := match sh.value? "CDPATH" with
      | some directories => if fixed then [""] else directories.splitOn ":" ++ [""]
      | none => [""]
    let here := (sh.value? "PWD").getD ""
    match ← goTo ((found.getLast?.map (·.1)) = some 'P') here path entries with
    | none => sh.abort ("can't cd to " ++ path)
    | some (directory, searched) =>
      let sh := (sh.setExported "OLDPWD" here).setExported "PWD" directory
      if loud || searched then print sh (directory ++ "\n") 0 else return sh.withStatus 0

/-- Three permissions as letters. -/
def permissionLetters (bits : Nat) : String :=
  (if bits &&& 4 ≠ 0 then "r" else "") ++ (if bits &&& 2 ≠ 0 then "w" else "") ++
    (if bits &&& 1 ≠ 0 then "x" else "")

/-- A number in octal digits, at least four of them. -/
def fourOctal (n : Nat) : String :=
  let digits := Nat.toDigits 8 n
  String.ofList (List.replicate (4 - digits.length) '0' ++ digits)

def umask : Builtin := fun sh args =>
  withOptions "S" sh args fun found args => do
    match args with
    | [] =>
      if found.isEmpty then print sh (fourOctal sh.mask ++ "\n") 0
      else
        let allowed (shift : Nat) : String := permissionLetters (7 - sh.mask / shift % 8)
        print sh ("u=" ++ allowed 64 ++ ",g=" ++ allowed 8 ++ ",o=" ++ allowed 1 ++ "\n") 0
    | text :: _ =>
      if !text.isEmpty && text.all fun c => '0' ≤ c && c ≤ '7' then
        let mask := text.toList.foldl (fun n c => n * 8 + (c.toNat - 48)) 0
        return { sh with mask := mask % 512, status := 0 }
      else if text.toList.head?.any Char.isDigit then sh.abort (illegalNumber text)
      else sh.abort ("Illegal mode: " ++ text)

/-- The command `test`, or `[` with its bracket. -/
def test (bracket : Bool) : Builtin := fun sh args => do
  if bracket && args.getLast? ≠ some "]" then sh.abort "missing ]"
  else
    match ← Test.holds (if bracket then args.dropLast else args) with
    | .ok b => return sh.withStatus (if b then 0 else 1)
    | .error reason => sh.abort reason

/-- Does nothing. -/
def nothing (status : Nat) : Builtin := fun sh _ => return sh.withStatus status

/-- The builtins by name, apart from those that run further commands. -/
def byName : List (String × Builtin) :=
  [ (":", nothing 0), ("true", nothing 0), ("false", nothing 1), ("echo", echo),
    ("printf", printf), ("pwd", pwd), ("cd", cd), ("chdir", cd), ("kill", kill), ("read", read),
    ("test", test false), ("[", test true), ("shift", shift), ("set", set), ("unset", unset),
    ("export", exportVariables), ("readonly", readonlyVariables), ("local", localVariables),
    ("trap", trap), ("umask", umask), ("getopts", getopts), ("hash", hash), ("jobs", nothing 0) ]

/-- The names of the builtins that run further commands or wait for them. -/
def others : List String :=
  [".", "break", "command", "continue", "eval", "exec", "exit", "return", "type", "wait"]

/-- The names of all builtins. -/
def names : List String := byName.map (·.1) ++ others

end Chaperone.Machine.Shell.Builtin
