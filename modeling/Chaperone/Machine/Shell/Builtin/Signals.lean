import Chaperone.Machine.Shell.Builtin.Basic
import Chaperone.Machine.Shell.Signals

/-!
# Commands on signals

`kill` sends signals, and `trap` sets what the shell runs when one arrives, or at its end.
-/

namespace Chaperone.Machine.Shell.Builtin

open Routine

/-- Sends a signal to each of some processes. -/
def killEach (signal : Nat) (sh : Session) : List String → Routine Session
  | [] => return sh
  | target :: rest => do
    let (negative, digits) := match target.toList with
      | '-' :: digits => (true, String.ofList digits)
      | _ => (false, target)
    match number? digits with
    | none => sh.abort (illegalNumber digits)
    | some n =>
      match ← ask (.kill (if negative then -(n : Int) else n) signal) with
      | .ok () => killEach signal sh rest
      | .error errno => killEach signal (← complain sh (reason errno ++ "\n") 1) rest

/-- What is said about how `kill` is used. -/
def killUsage : String :=
  "Usage: kill [-s sigspec | -signum | -sigspec] [pid | job]... or\nkill -l [exitstatus]"

/-- The name of a signal that exists, or its number if it has none. -/
def shownSignal (signal : Nat) : String :=
  if signal = 34 then "RTMIN"
  else if signal = 64 then "RTMAX"
  else if 34 < signal && signal < 50 then "RTMIN+" ++ toString (signal - 34)
  else if 50 ≤ signal then "RTMAX-" ++ toString (64 - signal)
  else nameOf signal

/-- Shows the names of the signals, or of one of them. -/
def listSignals (sh : Session) : List String → Routine Session
  | [] =>
    print sh (String.join ("0\n" :: (List.range 64).map fun n => shownSignal (n + 1) ++ "\n")) 0
  | text :: _ =>
    match number? text with
    | none => sh.abort (illegalNumber text)
    | some n =>
      let signal := if 128 < n then n - 128 else n
      if 0 < signal && signal ≤ 64 then print sh (shownSignal signal ++ "\n") 0
      else sh.abort ("invalid signal number or exit status: " ++ text)

def kill : Builtin := fun sh args => do
  let send (signal : Nat) (targets : List String) : Routine Session :=
    if targets.isEmpty then sh.abort killUsage else killEach signal (sh.withStatus 0) targets
  match args with
  | [] => sh.abort killUsage
  | first :: rest =>
    let name := String.ofList (first.toList.drop 1)
    if !first.startsWith "-" then send SignalNumber.terminate args
    else
      match signalOf name with
      | some signal => send signal rest
      | none =>
        withOptions "ls:" sh args fun found targets => do
          if found.any (·.1 == 'l') then
            if found.any (·.1 == 's') then sh.abort killUsage else listSignals sh targets
          else
            match (found.reverse.lookup 's').join with
            | none => send SignalNumber.terminate targets
            | some name =>
              match signalOf name with
              | some signal => send signal targets
              | none => sh.abort ("invalid signal number or name: " ++ name)

/-! ## Traps -/

/-- The signal that a trap is for; zero is the end. -/
def condition? (text : String) : Option Nat :=
  if text.toUpper = "EXIT" then some 0 else signalOf text

/-- Sets what to run on some signals. -/
def setTraps (action : Option String) (sh : Session) : List String → Routine Session
  | [] => return sh
  | name :: rest => do
    match condition? name with
    | none =>
      say 2 ("trap: " ++ name ++ ": bad trap\n")
      return sh.withStatus 1
    | some signal =>
      let others := sh.traps.filter (·.1 ≠ signal)
      if signal ≠ 0 then
        let _ ← ask (.handle signal (match action with
          | none => .default
          | some "" => .ignore
          | some _ => .catch))
      setTraps action { sh with traps := match action with
        | none => others
        | some action => others ++ [(signal, action)] } rest

/-- A line that sets a trap. -/
def trapLine (signal : Nat) (action : String) : String :=
  "trap -- " ++ quoted action ++ " " ++ (if signal = 0 then "EXIT" else shownSignal signal) ++ "\n"

def trap : Builtin := fun sh args =>
  withOptions "" sh args fun _ args => do
    let sh := sh.withStatus 0
    match args with
    | [] =>
      let traps := sh.traps.mergeSort fun a b => a.1 ≤ b.1
      print sh (String.join (traps.map fun (signal, action) => trapLine signal action)) 0
    | [name] => setTraps none sh [name]
    | "-" :: names => setTraps none sh names
    | action :: names =>
      if (condition? action).isSome then setTraps none sh args
      else setTraps (some action) sh names

end Chaperone.Machine.Shell.Builtin
