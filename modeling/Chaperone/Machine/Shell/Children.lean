import Chaperone.Machine.Shell.Builtin

/-!
# Children of the shell

How the shell starts programs and waits for what it has started.
-/

namespace Chaperone.Machine.Shell

open Routine

/-- The shell itself. -/
def shellPath : String := "/bin/sh"

/-- Says how a program ended if a signal ended it, unless nobody wonders. -/
def mourn (word : Nat) : Routine Unit := do
  let signal := word % 128
  if signal ≠ 0 && signal ≠ SignalNumber.interrupt && signal ≠ SignalNumber.pipe then
    say 2 (obituary signal ++ "\n")

/-- The status word of a child that is not there. -/
def missingChild : Nat := 127 * 256

/-- Waits until some children have ended, and takes note of any other that ends meanwhile.  Gives
whether that was not ended by a signal for which something is to be run, if that `counts`. -/
def awaitAll (counts : Bool) (pids : List Nat) (sh : Session) : Nat → Routine (Session × Bool)
  | 0 => return (sh, true)
  | fuel + 1 => do
    let missing := pids.filter fun pid => (sh.ended.lookup pid).isNone
    if missing.isEmpty then return (sh, true)
    else
      match ← ask (.wait .any) with
      | .ok (pid, word) =>
        if pids.contains pid then mourn word
        awaitAll counts pids { sh with ended := (pid, word) :: sh.ended } fuel
      | .error errno =>
        if errno = Errno.interrupted then
          if counts then return (sh, false) else awaitAll counts pids sh fuel
        else
          return ({ sh with ended := missing.map (·, missingChild) ++ sh.ended }, true)

/-- Waits for the end of children that nobody will ask about again.  Gives the status of the last
of them. -/
def awaitJob (pids : List Nat) (sh : Session) : Routine (Session × Nat) := do
  let (sh, _) ← awaitAll false pids sh rounds
  let word := (pids.getLast?.bind fun pid => sh.ended.lookup pid).getD 0
  let ended := sh.ended.filter fun entry => !pids.contains entry.1
  return ({ sh with ended }, statusOfWord word)

/-- Lets the signals for which something is to be run do again what they do of themselves. -/
def dropTraps : List (Nat × String) → Routine Unit
  | [] => return
  | (signal, action) :: rest => do
    if signal ≠ 0 && !action.isEmpty then
      let _ ← ask (.handle signal .default)
    dropTraps rest

/-- What a child in the background does first; with `alone` it reads nothing. -/
def enterBackground (alone : Bool) : Routine Unit := do
  let _ ← ask (.handle SignalNumber.interrupt .ignore)
  let _ ← ask (.handle SignalNumber.quit .ignore)
  if alone then
    let _ ← ask (.close 0)
    let _ ← ask (.openFile "/dev/null" .read)

/-- Complains about a program that cannot be run.  Gives the status. -/
def cannotRun (sh : Session) (name : String) (errno : Errno) : Routine Nat := do
  sh.complain (name ++ ": " ++ obstacle errno)
  let missing := errno = Errno.noEntry || errno = Errno.notDirectory || errno = Errno.linkLoop ||
    errno = Errno.nameTooLong
  return if missing then 127 else 126

/-- Tries to become a program; a file without a known form is taken for a script.  Gives the status
after a complaint. -/
def become (sh : Session) (path : String) (args : List String) : Routine Nat := do
  let errno : Errno ← ask (.execute path args sh.exports)
  let errno : Errno ←
    if errno = Errno.notExecutable then
      ask (.execute shellPath (shellPath :: path :: args.drop 1) sh.exports)
    else pure errno
  cannotRun sh (args.headD "") errno

/-- Takes note of signals that have arrived. -/
def notice (sh : Session) : Routine Session := do
  if sh.hasTraps then return { sh with arrived := sh.arrived ++ (← ask .takeCaught) }
  else return sh

/-- Waits for all children. -/
def awaitEveryone (sh : Session) : Nat → Routine (Session × Bool)
  | 0 => return (sh, true)
  | fuel + 1 => do
    match ← ask (.wait .any) with
    | .ok (pid, word) => awaitEveryone { sh with ended := (pid, word) :: sh.ended } fuel
    | .error errno => return (sh, errno ≠ Errno.interrupted)

/-- The shell after a signal has ended its waiting. -/
def interrupted (sh : Session) : Routine Session := do
  let sh ← notice sh
  return sh.withStatus (128 + sh.arrived.headD 0)

/-- Waits for commands in the background, each of which is known by its last child. -/
def awaitBackground (sh : Session) : List Nat → Routine Session
  | [] => return sh
  | pid :: rest => do
    match sh.jobs.find? fun job => job.getLast? = some pid with
    | none => awaitBackground (sh.withStatus 127) rest
    | some job =>
      match ← awaitAll true job sh rounds with
      | (sh, false) => interrupted sh
      | (sh, true) =>
        awaitBackground (sh.withStatus (statusOfWord ((sh.ended.lookup pid).getD 0))) rest

namespace Builtin

def wait : Builtin := fun sh args =>
  withOptions "" sh args fun _ args => do
    match args.find? fun arg => (number? arg).isNone with
    | some text => sh.abort (illegalNumber text)
    | none =>
      if args.isEmpty then
        match ← awaitEveryone sh rounds with
        | (sh, true) => return sh.withStatus 0
        | (sh, false) => interrupted sh
      else awaitBackground sh (args.filterMap number?)

end Builtin

end Chaperone.Machine.Shell
