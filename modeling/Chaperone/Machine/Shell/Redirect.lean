import Chaperone.Machine.Shell.Children

/-!
# Redirections

While a command inside the shell runs, its redirections are in force; what they replace is set
aside and put back.
-/

namespace Chaperone.Machine.Shell

open Routine

/-- A redirection whose word is known. -/
structure Opening where
  fd : Nat
  direction : Direction
  target : String

/-- Whether a word can stand for an open file that is duplicated or closed. -/
def isFileNumber (text : String) : Bool :=
  text = "-" || (text.length = 1 && text.all Char.isDigit)

/-- Makes one open file stand where another one stood. -/
def move (file fd : Nat) : Routine Unit := do
  if file ≠ fd then
    let _ ← ask (.duplicate file fd)
    let _ ← ask (.close file)

/-- How much of a document a pipe takes without a child that writes it. -/
def maxDocument : Nat := 4096

/-- Opens a document.  A long one is written by a child. -/
def openDocument (text : String) : Routine Nat := do
  let (reading, writing) ← ask .pipe
  if text.length ≤ maxDocument then say writing text
  else
    let _ ← fork do
      let _ ← ask (.close reading)
      say writing text
  let _ ← ask (.close writing)
  return reading

/-- Carries out a redirection.  With `keep`, no file may be overwritten.  Gives a complaint if that
fails. -/
def open_ (keep : Bool) (o : Opening) : Routine (Option String) := do
  let failed (mode : OpenMode) (errno : Errno) : String :=
    let gone := errno = Errno.noEntry || errno = Errno.notDirectory
    if mode = .read then
      "cannot open " ++ o.target ++ ": " ++ (if gone then "No such file" else reason errno)
    else
      "cannot create " ++ o.target ++ ": " ++
        (if gone then "Directory nonexistent" else reason errno)
  let opened (mode : OpenMode) : Routine (Option String) := do
    match ← ask (.openFile o.target mode) with
    | .ok file =>
      move file o.fd
      return none
    | .error errno => return some (failed mode errno)
  match o.direction with
  | .read => opened .read
  | .write => do
    let regular ← if keep then do
        match ← ask (.look o.target) with
        | .ok node => pure node.isRegular
        | .error _ => pure false
      else pure false
    if regular then return some ("cannot create " ++ o.target ++ ": File exists")
    else opened .write
  | .overwrite => opened .write
  | .append => opened .append
  | .readWrite => opened .readWrite
  | .document => do
    move (← openDocument o.target) o.fd
    return none
  | .duplicate =>
    if o.target = "-" then
      let _ ← ask (.close o.fd)
      return none
    else
      match ← ask (.duplicate (o.target.toNat?.getD 0) o.fd) with
      | .ok () => return none
      | .error errno => return some (o.target ++ ": " ++ reason errno)

/-- Carries out redirections one after the other. -/
def openAll (keep : Bool) : List Opening → Routine (Option String)
  | [] => return none
  | o :: rest => do
    match ← open_ keep o with
    | none => openAll keep rest
    | failed => return failed

/-- What was set aside: the names of open files, and where each is kept if it was open. -/
abbrev Saved := List (Nat × Option Nat)

/-- Sets aside what the redirections will replace, the last of it first. -/
def saveAll (done : Saved) : List Opening → Routine Saved
  | [] => return done
  | o :: rest => do
    if done.any (·.1 = o.fd) then saveAll done rest
    else
      match ← ask (.setAside o.fd) with
      | .ok aside => saveAll ((o.fd, some aside) :: done) rest
      | .error _ => saveAll ((o.fd, none) :: done) rest

/-- Puts back what was set aside. -/
def restoreAll : Saved → Routine Unit
  | [] => return
  | (fd, some aside) :: rest => do
    let _ ← ask (.duplicate aside fd)
    let _ ← ask (.close aside)
    restoreAll rest
  | (fd, none) :: rest => do
    let _ ← ask (.close fd)
    restoreAll rest

/-- Lets what was set aside go. -/
def releaseAll : Saved → Routine Unit
  | [] => return
  | (_, some aside) :: rest => do
    let _ ← ask (.close aside)
    releaseAll rest
  | _ :: rest => releaseAll rest

/-- Does something with redirections in force; then undoes them, unless they `stay`.  The action is
told where standard error was before; if they fail, `failed` says what becomes of the shell. -/
def within (sh : Session) (openings : List Opening) (stay : Bool) (failed : Session → Session)
    (action : Nat → Routine Session) : Routine Session := do
  if openings.isEmpty then action 2
  else do
    let saved ← saveAll [] openings
    match ← openAll (sh.has 'C') openings with
    | none =>
      let sh ← action ((saved.lookup 2).join.getD 2)
      if stay && sh.leaving.isNone then releaseAll saved else restoreAll saved
      return sh
    | some complaint =>
      sh.complain complaint
      restoreAll saved
      return failed (sh.withStatus 2)

end Chaperone.Machine.Shell
