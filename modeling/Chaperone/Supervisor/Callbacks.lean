import Chaperone.Process.Result
import Chaperone.Supervisor.Script

/-!
# Callbacks

Callbacks are attached to a child when it is launched.  Those of one child share a memory of their
own, which nobody else sees; all callbacks of a supervisor share a state `σ`.  Any of them may be
missing.
-/

namespace Chaperone

/-- To which child something happens, and at what time of day (in milliseconds since 1970). -/
structure Occasion where
  pid : Pid
  time : Nat
  deriving DecidableEq, Repr, Inhabited

/-- What is done when something happens to a child. -/
structure Callbacks (σ : Type) : Type 1 where
  /-- What the callbacks of this child remember. -/
  Memory : Type
  memory : Memory
  /-- Runs once, right after the child is registered. -/
  onStarted : Option (Occasion → Memory → σ → Script (Memory × σ)) := none
  /-- Runs with each piece of standard output. -/
  onStdout : Option (Occasion → String → Memory → σ → Script (Memory × σ)) := none
  /-- Runs with each piece of standard error. -/
  onStderr : Option (Occasion → String → Memory → σ → Script (Memory × σ)) := none
  /-- Runs once, with the exit status; nothing runs for the child afterwards. -/
  onExit : Option (Occasion → ExitStatus → Memory → σ → σ) := none

namespace Callbacks

variable {σ : Type}

/-- No callbacks. -/
def none : Callbacks σ where
  Memory := Unit
  memory := ()

instance : Inhabited (Callbacks σ) := ⟨none⟩

/-- The callback for a stream. -/
def onOutput (callbacks : Callbacks σ) :
    OutputStream →
      Option (Occasion → String → callbacks.Memory → σ → Script (callbacks.Memory × σ))
  | .stdout => callbacks.onStdout
  | .stderr => callbacks.onStderr

/-- The callbacks with another memory. -/
def remember (callbacks : Callbacks σ) (memory : callbacks.Memory) : Callbacks σ :=
  { callbacks with memory }

/-- Which callbacks there are, for diagnostics. -/
def inspect (callbacks : Callbacks σ) : String :=
  let part (name : String) (present : Bool) : String :=
    name ++ ": " ++ if present then "true" else "false"
  "ProcessCallbacks \x7b " ++
    ", ".intercalate
      [ part "on_started" callbacks.onStarted.isSome, part "on_stdout" callbacks.onStdout.isSome,
        part "on_stderr" callbacks.onStderr.isSome, part "on_exit" callbacks.onExit.isSome ] ++
    " \x7d"

/-- Takes the exit callback out.  It can be run once, with the memory that is there now. -/
def takeExit (callbacks : Callbacks σ) :
    Option (Occasion → ExitStatus → σ → σ) × Callbacks σ :=
  (callbacks.onExit.map fun exit occasion status s => exit occasion status callbacks.memory s,
    { callbacks with onExit := Option.none })

end Callbacks

/-- Output that has been collected. -/
structure Collected where
  stdout : String := ""
  stderr : String := ""
  deriving DecidableEq, Repr, Inhabited

/-- Callbacks that feed a child its input, collect all output and hand over the result. -/
def Callbacks.collecting {σ : Type} (input : String) (completed : RunResult → σ → σ) :
    Callbacks σ where
  Memory := Collected
  memory := {}
  onStarted := some fun _ memory s => (Script.feed input).bind fun () => .done (memory, s)
  onStdout := some fun _ text memory s =>
    .done ({ memory with stdout := memory.stdout ++ text }, s)
  onStderr := some fun _ text memory s =>
    .done ({ memory with stderr := memory.stderr ++ text }, s)
  onExit := some fun _ status memory s =>
    completed ⟨status.code, memory.stdout, memory.stderr⟩ s

end Chaperone
