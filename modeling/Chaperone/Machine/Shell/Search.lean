import Chaperone.Machine.Shell.Builtin.Variables

/-!
# Looking for commands

A name with a slash is the path of a program.  Any other name is first the name of a special
builtin, then of a function, of another builtin, and last of a program in the search path.
-/

namespace Chaperone.Machine.Shell

open Routine

/-- Finds a program in some directories. -/
def searchPath (name : String) : List String → Errno → Routine (Except Errno String)
  | [], found => return .error found
  | entry :: rest, found => do
    let path := if entry.isEmpty then name else entry ++ "/" ++ name
    match ← ask (.look path) with
    | .ok node =>
      if node.isExecutable then return .ok path else searchPath name rest Errno.accessDenied
    | .error _ => searchPath name rest found

/-- The directories of the search path. -/
def Session.searchPath (sh : Session) : List String := ((sh.value? "PATH").getD "").splitOn ":"

/-- The search path that `command -p` uses. -/
def standardPath : List String :=
  ["/usr/local/sbin", "/usr/local/bin", "/usr/sbin", "/usr/bin", "/sbin", "/bin"]

/-- Finds a program. -/
def findProgram (sh : Session) (directories : List String) (name : String) :
    Routine (Session × Except Errno String) := do
  if name.contains '/' then return (sh, .ok name)
  else
    match ← Shell.searchPath name directories Errno.noEntry with
    | .ok path =>
      let found := if sh.found.contains name then sh.found else sh.found ++ [name]
      return ({ sh with found }, .ok path)
    | .error errno => return (sh, .error errno)

/-- What is said about a program that cannot be run. -/
def obstacle (errno : Errno) : String :=
  if errno = Errno.noEntry || errno = Errno.notDirectory then "not found" else reason errno

namespace Builtin

/-- Says what a name stands for, in words or with nothing but its place. -/
def describe (inWords : Bool) (builtins : List String) (directories : List String) (sh : Session)
    (name : String) : Routine Session := do
  let say (words short : String) : Routine Session :=
    print sh ((if inWords then name ++ words else short) ++ "\n") sh.status
  if reserved.contains name then say " is a shell keyword" name
  else if specialBuiltins.contains name then say " is a special shell builtin" name
  else if (sh.functions.lookup name).isSome then say " is a shell function" name
  else if builtins.contains name then say " is a shell builtin" name
  else
    let missing : Routine Session := print sh (if inWords then name ++ ": not found\n" else "") 127
    if name.contains '/' then
      match ← ask (.look name) with
      | .ok _ => say (" is " ++ name) name
      | .error _ => missing
    else
      match ← findProgram sh directories name with
      | (after, .ok path) =>
        let tracked := sh.found.contains name
        let sh ← say ((if tracked then " is a tracked alias for " else " is ") ++ path) path
        return { sh with found := after.found }
      | (_, .error _) => missing

/-- Says what each of some names stands for. -/
def describeEach (builtins : List String) (sh : Session) : List String → Routine Session
  | [] => return sh
  | name :: rest => do
    describeEach builtins (← describe true builtins sh.searchPath sh name) rest

/-- Shows or changes what is known of where programs are. -/
def hash : Builtin := fun sh args =>
  withOptions "rv" sh args fun found names => do
    if found.any (·.1 == 'r') then return { sh with found := [], status := 0 }
    else if names.isEmpty then show_ (sh.withStatus 0) sh.found
    else look (sh.withStatus 0) names
where
  /-- Shows where programs are. -/
  show_ (sh : Session) : List String → Routine Session
    | [] => return sh
    | name :: rest => do
      match ← Shell.searchPath name sh.searchPath Errno.noEntry with
      | .ok path => show_ (← print sh (path ++ "\n") 0) rest
      | .error _ => show_ sh rest
  /-- Looks for programs. -/
  look (sh : Session) : List String → Routine Session
    | [] => return sh
    | name :: rest => do
      match ← findProgram sh sh.searchPath name with
      | (sh, .ok _) => look sh rest
      | (sh, .error _) => look (← complain sh (name ++ ": not found") 1) rest

end Builtin

end Chaperone.Machine.Shell
