import Chaperone.Machine.Printf
import Chaperone.Machine.Tool.Basic

/-!
# Tools for files

They make, change, list and remove files, or take paths apart.
-/

namespace Chaperone.Machine

namespace Tool

open Routine

/-- Takes away what a path leads to, with all that is in it. -/
def removeTree (path : String) : Nat → Routine (Except Errno Unit)
  | 0 => return .error Errno.nameTooLong
  | fuel + 1 => do
    match ← ask (.lookLink path) with
    | .ok .directory =>
      match ← ask (.list path) with
      | .error errno => return .error errno
      | .ok names =>
        let rec each : List String → Routine (Except Errno Unit)
          | [] => ask (.removeDirectory path)
          | name :: rest => do
            match ← removeTree (path ++ "/" ++ name) fuel with
            | .ok () => each rest
            | .error errno => return .error errno
        each names
    | .ok _ => ask (.unlink path)
    | .error errno => return .error errno

/-- How many names may be on the way to a file. -/
def maxDepth : Nat := 4096

def rm : Tool := fun args _ => do
  let recursive := hasOption args 'r' || hasOption args 'R'
  eachOperand (operands args)
    (fun name => if recursive then removeTree name maxDepth else ask (.unlink name))
    (fun name => "rm: cannot remove '" ++ name ++ "': ")
    fun errno => hasOption args 'f' && errno = Errno.noEntry

def rmdir : Tool := fun args _ => do
  eachOperand (operands args) (fun name => ask (.removeDirectory name))
    (fun name => "rmdir: failed to remove '" ++ name ++ "': ") fun _ => false

/-- Makes a directory and those on the way to it. -/
def makeWay (done : String) : List String → Routine (Except Errno Unit)
  | [] => return .ok ()
  | name :: rest => do
    let path := done ++ name
    match ← ask (.makeDirectory path) with
    | .ok () => makeWay (path ++ "/") rest
    | .error errno =>
      match ← ask (.look path) with
      | .ok .directory => makeWay (path ++ "/") rest
      | _ => return .error errno

def mkdir : Tool := fun args _ => do
  eachOperand (operands args)
    (fun name =>
      if hasOption args 'p' then
        makeWay (if name.startsWith "/" then "/" else "") (Files.split name)
      else ask (.makeDirectory name))
    (fun name => "mkdir: cannot create directory '" ++ name ++ "': ") fun _ => false

def touch : Tool := fun args _ => do
  eachOperand (operands args)
    (fun name => do
      match ← ask (.openFile name .append) with
      | .error errno => return .error errno
      | .ok fd => ask (.close fd))
    (fun name => "touch: cannot touch '" ++ name ++ "': ") fun _ => false

def ls : Tool := fun args _ => do
  let show_ (names : List String) : Routine Unit := do
    let names := if hasOption args 'a' then names else names.filter fun n => !n.startsWith "."
    say 1 (String.join (names.map (· ++ "\n")))
  match operands args with
  | [] =>
    match ← ask (.list ".") with
    | .ok names => show_ names
    | .error errno => fail ("ls: cannot open directory '.': " ++ reason errno) 2
  | [name] =>
    match ← ask (.list name) with
    | .ok names => show_ names
    | .error errno =>
      if errno = Errno.notDirectory then say 1 (name ++ "\n")
      else fail ("ls: cannot access '" ++ name ++ "': " ++ reason errno) 2
  | names => say 1 (String.join (names.map (· ++ "\n")))

/-! ## Permissions and links -/

/-- The bits of letters for permissions. -/
def permissionBits (letters : List Char) : Nat :=
  letters.foldl (fun bits c =>
    bits ||| (if c == 'r' then 4 else if c == 'w' then 2 else if c == 'x' then 1 else 0)) 0

/-- The permissions that one clause makes of others. -/
def applyClause (mode : Nat) (clause : List Char) : Option Nat :=
  let who := clause.takeWhile "ugoa".toList.contains
  match clause.drop who.length with
  | sign :: letters =>
    if !letters.all "rwxX".toList.contains then none
    else
      let all := who.isEmpty || who.contains 'a'
      let bits := permissionBits (letters.map fun c => if c == 'X' then 'x' else c)
      let place (letter : Char) (shift : Nat) : Nat :=
        if all || who.contains letter then shift else 0
      let spread (bits : Nat) : Nat := bits * (place 'u' 64 + place 'g' 8 + place 'o' 1)
      let bits := if who.isEmpty then spread bits &&& 0o755
        else spread bits
      if sign == '+' then some (mode ||| bits)
      else if sign == '-' then some (mode - (mode &&& bits))
      else if sign == '=' then some (mode - (mode &&& spread 7) + bits)
      else none
  | [] => none

/-- The permissions that a text asks for. -/
def modeOf (text : String) (mode : Nat) : Option Nat :=
  if !text.isEmpty && text.all fun c => (Printf.octal? c).isSome then
    some (text.toList.foldl (fun n c => n * 8 + (c.toNat - 48)) 0 % 0o10000)
  else (text.splitOn ",").foldl (fun mode? clause => mode?.bind (applyClause · clause.toList)) mode

def chmod : Tool := fun args _ => do
  match (args.drop 1).filter fun a => a ≠ "-R" && a ≠ "--" with
  | [] => misuse "chmod" "missing operand"
  | [text] => misuse "chmod" ("missing operand after '" ++ text ++ "'")
  | text :: names =>
    if (modeOf text 0).isNone then misuse "chmod" ("invalid mode: '" ++ text ++ "'")
    else
      eachOperand names
        (fun name => do
          match ← ask (.look name) with
          | .ok (.file mode _) => ask (.setMode name ((modeOf text mode).getD mode))
          | .ok _ => return .ok ()
          | .error errno => return .error errno)
        (fun name => "chmod: cannot access '" ++ name ++ "': ") fun _ => false

/-- The last name of a path. -/
def lastName (path : String) : String :=
  match (Files.split path).getLast? with
  | some name => name
  | none => if path.isEmpty then "" else "/"

/-- Where each of some files goes: into a directory, or to a place of its own. -/
def destinations (names : List String) (target : String) : Routine (List (String × String)) := do
  let inside ← do
    match ← ask (.look target) with
    | .ok .directory => pure true
    | _ => pure false
  return names.map fun name => (name, if inside then target ++ "/" ++ lastName name else target)

/-- Does something with each of some files and the place where it goes. -/
def eachDestination (tool : String) (args : List String)
    (use : String → String → Routine (Option String)) : Routine Unit := do
  match (operands args).reverse with
  | [] => misuse tool "missing file operand"
  | [name] => misuse tool ("missing destination file operand after '" ++ name ++ "'")
  | target :: names =>
    let rec go (code : Nat) : List (String × String) → Routine Unit
      | [] => exit code
      | (name, path) :: rest => do
        match ← use name path with
        | none => go code rest
        | some complaint =>
          say 2 (tool ++ ": " ++ complaint ++ "\n")
          go 1 rest
    go 0 (← destinations names.reverse target)

/-- Copies a file. -/
def copyFile (name path : String) : Routine (Option String) := do
  match ← ask (.look name) with
  | .error errno => return some ("cannot stat '" ++ name ++ "': " ++ reason errno)
  | .ok .directory => return some ("-r not specified; omitting directory '" ++ name ++ "'")
  | .ok node =>
    match ← ask (.openFile name .read) with
    | .error errno => return some ("cannot open '" ++ name ++ "' for reading: " ++ reason errno)
    | .ok fd =>
      let bytes := match ← readAll fd with
        | .ok bytes => bytes
        | .error _ => []
      match ← ask (.openFile path .write) with
      | .error errno =>
        return some ("cannot create regular file '" ++ path ++ "': " ++ reason errno)
      | .ok out =>
        let _ ← write out bytes
        match node with
        | .file mode _ =>
          let _ ← ask (.setMode path mode)
          return none
        | _ => return none

def cp : Tool := fun args _ => eachDestination "cp" args copyFile

def mv : Tool := fun args _ =>
  eachDestination "mv" args fun name path => do
    match ← ask (.lookLink name) with
    | .error errno => return some ("cannot stat '" ++ name ++ "': " ++ reason errno)
    | .ok _ =>
      match ← ask (.rename name path) with
      | .ok () => return none
      | .error errno =>
        return some ("cannot move '" ++ name ++ "' to '" ++ path ++ "': " ++ reason errno)

def ln : Tool := fun args _ =>
  eachDestination "ln" args fun name path => do
    if !hasOption args 's' then copyFile name path
    else
      if hasOption args 'f' then
        let _ ← ask (.unlink path)
      match ← ask (.makeLink name path) with
      | .ok () => return none
      | .error errno =>
        return some ("failed to create symbolic link '" ++ path ++ "': " ++ reason errno)

def readlink : Tool := fun args _ => do
  let rec go (code : Nat) : List String → Routine Unit
    | [] => exit code
    | name :: rest => do
      match ← ask (.lookLink name) with
      | .ok (.link target) =>
        say 1 (target ++ "\n")
        go code rest
      | _ => go 1 rest
  go 0 (operands args)

/-! ## Paths -/

def basename : Tool := fun args _ => do
  match operands args with
  | [] => misuse "basename" "missing operand"
  | path :: more =>
    let name := lastName path
    let ending := more.headD ""
    say 1 ((if name.endsWith ending && name ≠ ending then
      String.ofList (name.toList.take (name.length - ending.length)) else name) ++ "\n")

def dirname : Tool := fun args _ => do
  match operands args with
  | [] => misuse "dirname" "missing operand"
  | paths =>
    say 1 (String.join (paths.map fun path =>
      let slash := fun c : Char => c == '/'
      let rest := (path.toList.reverse.dropWhile slash).dropWhile fun c => c != '/'
      let rest := rest.dropWhile slash
      (if !rest.isEmpty then String.ofList rest.reverse
        else if path.startsWith "/" then "/" else ".") ++ "\n"))

end Tool

end Chaperone.Machine
