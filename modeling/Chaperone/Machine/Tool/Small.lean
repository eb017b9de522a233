import Chaperone.Machine.Printf
import Chaperone.Machine.Shell.Test
import Chaperone.Machine.Tool.Basic

/-!
# Small tools

They write something, wait, or become another program.
-/

namespace Chaperone.Machine

namespace Tool

open Routine

/-- A time in microseconds. -/
def duration? (text : String) : Option Nat :=
  let (unit, digits) := match text.toList.reverse with
    | 's' :: rest => (1, rest.reverse)
    | 'm' :: rest => (60, rest.reverse)
    | 'h' :: rest => (3600, rest.reverse)
    | 'd' :: rest => (86400, rest.reverse)
    | rest => (1, rest.reverse)
  let whole := digits.takeWhile Char.isDigit
  let rest := digits.drop whole.length
  let value (ds : List Char) : Nat := ds.foldl (fun n c => n * 10 + (c.toNat - 48)) 0
  match rest with
  | [] => if whole.isEmpty then none else some (value whole * 1000000 * unit)
  | '.' :: part =>
    if part.all Char.isDigit && !(whole.isEmpty && part.isEmpty) then
      let micro := value ((part ++ List.replicate 6 '0').take 6)
      some ((value whole * 1000000 + micro) * unit)
    else none
  | _ => none

def sleep : Tool := fun args _ => do
  match args.drop 1 with
  | [] => misuse "sleep" "missing operand"
  | times =>
    match times.find? fun t => (duration? t).isNone with
    | some wrong => misuse "sleep" ("invalid time interval '" ++ wrong ++ "'")
    | none =>
      let _ ← ask (.sleep (times.foldl (fun total t => total + (duration? t).getD 0) 0))

def echo : Tool := fun args _ => do
  match args.drop 1 with
  | "-n" :: rest => say 1 (" ".intercalate rest)
  | "-e" :: rest =>
    let (text, ended) := Printf.unescaped (" ".intercalate rest)
    say 1 (if ended then text else text ++ "\n")
  | rest => say 1 (" ".intercalate rest ++ "\n")

def printf : Tool := fun args _ => do
  match args.drop 1 with
  | [] => misuse "printf" "missing operand"
  | format :: rest =>
    let p := Printf.print format rest
    say 1 p.text
    match p.failure, p.wrong with
    | some text, _ => fail ("printf: " ++ text) 1
    | none, [] => pure ()
    | none, (text, .notNumber) :: _ =>
      fail ("printf: '" ++ text ++ "': expected a numeric value") 1
    | none, (text, .unfinished) :: _ =>
      fail ("printf: '" ++ text ++ "': value not completely converted") 1
    | none, (text, .outOfRange) :: _ =>
      fail ("printf: '" ++ text ++ "': Numerical result out of range") 1

def pwd : Tool := fun _ _ => do say 1 ((← ask .currentDirectory) ++ "\n")

/-- The variables one on a line. -/
def listing (vars : Variables) : String :=
  String.join (vars.map fun (name, value) => name ++ "=" ++ value ++ "\n")

def printenv : Tool := fun args vars => do
  match args.drop 1 with
  | [] => say 1 (listing vars)
  | names =>
    let found := names.map fun name => vars.filter fun entry => entry.1 = name
    say 1 (String.join (found.flatten.map fun entry => entry.2 ++ "\n"))
    if found.any (·.isEmpty) then exit 1

/-- Becomes the program that a name stands for, found in a search path. -/
def become (name : String) (args : List String) (searchPath : String) (vars : Variables) :
    Routine Errno :=
  if name.contains '/' then ask (.execute name args vars)
  else
    let rec go (found : Errno) : List String → Routine Errno
      | [] => return found
      | entry :: rest => do
        let path := if entry.isEmpty then name else entry ++ "/" ++ name
        let errno : Errno ← ask (.execute path args vars)
        if errno = Errno.noEntry || errno = Errno.notDirectory then go found rest
        else if errno = Errno.accessDenied then go errno rest
        else return errno
    go Errno.noEntry (searchPath.splitOn ":")

/-- Whether an argument sets a variable. -/
def isSetting (arg : String) : Bool := arg.contains '='

/-- A setting in two parts. -/
def setting (arg : String) : String × String :=
  let name := arg.toList.takeWhile (· != '=')
  (String.ofList name, String.ofList (arg.toList.drop (name.length + 1)))

def env : Tool := fun args vars => do
  let (vars, rest) := match args.drop 1 with
    | "-i" :: rest | "-" :: rest => ([], rest)
    | rest => (vars, rest)
  let settings := rest.takeWhile isSetting
  let vars := settings.foldl (fun all arg =>
    let (name, value) := setting arg
    if (all.lookup name).isSome then
      all.map fun entry => if entry.1 = name then (name, value) else entry
    else all ++ [(name, value)]) vars
  match rest.drop settings.length with
  | [] => say 1 (listing vars)
  | command :: more =>
    let errno ← become command (command :: more)
      ((vars.lookup "PATH").getD "/usr/local/bin:/usr/bin:/bin") vars
    fail ("env: '" ++ command ++ "': " ++ reason errno) (if errno = Errno.noEntry then 127 else 126)

/-- Numbers one on a line. -/
def countUp (last step : Int) : Nat → Int → List UInt8 → Routine (List UInt8)
  | 0, _, held => return held
  | fuel + 1, n, held => do
    if (0 < step && last < n) || (step < 0 && n < last) then return held
    countUp last step fuel (n + step) (← buffer held (toBytes (toString n ++ "\n")))

def seq : Tool := fun args _ => do
  let number (text : String) : Routine Int :=
    match Printf.integer text with
    | (n, true) => return n
    | _ => misuse "seq" ("invalid floating point argument: '" ++ text ++ "'")
  match args.drop 1 with
  | [last] => flush (← countUp (← number last) 1 rounds 1 [])
  | [first, last] => flush (← countUp (← number last) 1 rounds (← number first) [])
  | [first, step, last] =>
    flush (← countUp (← number last) (← number step) rounds (← number first) [])
  | [] => misuse "seq" "missing operand"
  | _ :: _ :: _ :: extra :: _ => misuse "seq" ("extra operand '" ++ extra ++ "'")

/-- Writes the same bytes again and again. -/
def writeForever (bytes : List UInt8) : Nat → Routine Unit
  | 0 => return
  | fuel + 1 => do
    match ← write 1 bytes with
    | .error _ => exit 1
    | .ok _ => writeForever bytes fuel

def yes : Tool := fun args _ => do
  let line := toBytes ((if args.length ≤ 1 then "y" else " ".intercalate (args.drop 1)) ++ "\n")
  writeForever (List.replicate (8192 / line.length + 1) line).flatten rounds

/-- Copies standard input to standard output and to open files. -/
def spread (fds : List Nat) : Nat → Routine Unit
  | 0 => return
  | fuel + 1 => do
    match ← ask (.read 0 8192) with
    | .ok (b :: bytes) =>
      let rec toAll : List Nat → Routine Unit
        | [] => return
        | fd :: rest => do
          let _ ← write fd (b :: bytes)
          toAll rest
      toAll fds
      spread fds fuel
    | _ => return

def tee : Tool := fun args _ => do
  let rec openAll (fds : List Nat) : List String → Routine (List Nat)
    | [] => return fds.reverse
    | name :: rest => do
      match ← ask (.openFile name (if hasOption args 'a' then .append else .write)) with
      | .ok fd => openAll (fd :: fds) rest
      | .error errno =>
        say 2 ("tee: " ++ name ++ ": " ++ reason errno ++ "\n")
        openAll fds rest
  spread (← openAll [1] (operands args)) rounds

/-- The condition of `test`, or of `[` with its bracket. -/
def test (bracket : Bool) : Tool := fun args _ => do
  let words := args.drop 1
  if bracket && words.getLast? ≠ some "]" then fail "[: missing ']'" 2
  else
    match ← Shell.Test.holds (if bracket then words.dropLast else words) with
    | .ok true => return
    | .ok false => exit 1
    | .error reason => fail ((if bracket then "[: " else "test: ") ++ reason) 2

def uname : Tool := fun _ _ => say 1 "Linux\n"

def whoami : Tool := fun _ _ => say 1 "root\n"

def id : Tool := fun args _ => do
  let named := hasOption args 'n'
  if hasOption args 'u' || hasOption args 'g' then say 1 (if named then "root\n" else "0\n")
  else say 1 "uid=0(root) gid=0(root) groups=0(root)\n"

end Tool

end Chaperone.Machine
