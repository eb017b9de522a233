import Chaperone.Launch.Start
import Chaperone.Supervisor.Entry

/-!
# Supervisors

A supervisor is a registry of running children in the order of their launch.  Nothing happens to
them in the background: the caller looks at all of them with `poll`, as often as it likes, and
each look does a bounded amount of work.  A child leaves the registry at the end of the look in
which its exit is seen.
-/

namespace Chaperone

/-- A registry of running children, whose callbacks share a state `σ`. -/
structure Supervisor (σ : Type) : Type 1 where
  entries : List (Entry σ) := []

namespace Supervisor

variable {σ ω : Type}

instance : Inhabited (Supervisor σ) := ⟨{}⟩

/-- A supervisor without children. -/
def new : Supervisor σ := {}

/-- The numbers of the children, in the order of their launch. -/
def pids (supervisor : Supervisor σ) : List Pid := supervisor.entries.map (·.child.pid)

/-- How many children there are. -/
def size (supervisor : Supervisor σ) : Nat := supervisor.entries.length

/-- Whether there are no children. -/
def isEmpty (supervisor : Supervisor σ) : Bool := supervisor.entries.isEmpty

/-- Whether the exit of some child has not been seen. -/
def hasRunningChildren (supervisor : Supervisor σ) : Bool := !supervisor.entries.isEmpty

/-- The children's numbers, for diagnostics; `show` writes a number. -/
def inspect (supervisor : Supervisor σ) (name : Pid → String) : String :=
  "ProcessSupervisor \x7b pids: [" ++ ", ".intercalate (supervisor.pids.map name) ++ "] \x7d"

/-! ## Launching -/

/-- Registers a child and runs its first callback. -/
def register (host : Host ω) (child : Child) (callbacks : Callbacks σ) (killOnInputFailure : Bool)
    (supervisor : Supervisor σ) (s : σ) (w : ω) : Pid × Supervisor σ × σ × ω :=
  let (entry, s, w) := Entry.launched host child callbacks killOnInputFailure s w
  (child.pid, ⟨supervisor.entries ++ [entry]⟩, s, w)

/-- Launches a program and registers it.  If it cannot be launched nothing is registered and no
callback runs. -/
def launch (host : Host ω) (executable : String) (args : List String) (options : LaunchOptions)
    (callbacks : Callbacks σ) (killOnInputFailure : Bool) (supervisor : Supervisor σ) (s : σ)
    (w : ω) : Except Error Pid × Supervisor σ × σ × ω :=
  match spawn host executable args options w with
  | (.error cause, w) => (.error (.spawn cause), supervisor, s, w)
  | (.ok child, w) =>
    let (pid, supervisor, s, w) := supervisor.register host child callbacks killOnInputFailure s w
    (.ok pid, supervisor, s, w)

/-- Launches a program with callbacks. -/
def runProgram (host : Host ω) (executable : String) (args : List String)
    (options : LaunchOptions) (callbacks : Callbacks σ) :
    Supervisor σ → σ → ω → Except Error Pid × Supervisor σ × σ × ω :=
  launch host executable args options callbacks false

/-- Launches a command line of the shell with callbacks. -/
def runCommand (host : Host ω) (command : String) (options : LaunchOptions)
    (callbacks : Callbacks σ) :
    Supervisor σ → σ → ω → Except Error Pid × Supervisor σ × σ × ω :=
  runProgram host shell (shellArguments command) options callbacks

/-- Launches a program, feeds it its input and hands over its output and exit status at its end.
A child that does not take its input is killed. -/
def runProgramWithInput (host : Host ω) (executable : String) (args : List String)
    (input : String) (options : LaunchOptions) (completed : RunResult → σ → σ) :
    Supervisor σ → σ → ω → Except Error Pid × Supervisor σ × σ × ω :=
  launch host executable args options (.collecting input completed) true

/-- The same for a command line of the shell. -/
def runCommandWithInput (host : Host ω) (command : String) (input : String)
    (options : LaunchOptions) (completed : RunResult → σ → σ) :
    Supervisor σ → σ → ω → Except Error Pid × Supervisor σ × σ × ω :=
  runProgramWithInput host shell (shellArguments command) input options completed

/-! ## Looking -/

/-- One look at each of the children. -/
def pollAll (host : Host ω) : List (Entry σ) → σ → ω → List (Entry σ) × σ × ω
  | [], s, w => ([], s, w)
  | entry :: rest, s, w =>
    let (entry, s, w) := entry.poll host s w
    let (rest, s, w) := pollAll host rest s w
    (entry :: rest, s, w)

/-- One look at every child.  Those whose exit was seen leave the registry when all have been
looked at.  Says whether any are left. -/
def poll (host : Host ω) (supervisor : Supervisor σ) (s : σ) (w : ω) :
    Bool × Supervisor σ × σ × ω :=
  let (entries, s, w) := pollAll host supervisor.entries s w
  let left := entries.filter fun entry => !entry.finished
  (!left.isEmpty, ⟨left⟩, s, w)

/-- Sends each of the children a signal. -/
def signalEach (host : Host ω) (signal : Signal) : List (Entry σ) → ω → ω
  | [], w => w
  | entry :: rest, w => signalEach host signal rest (entry.child.signal host signal w).2

/-- Sends every child a signal.  It does not wait, and nothing leaves the registry. -/
def signalAll (host : Host ω) (signal : Signal) (supervisor : Supervisor σ) (w : ω) : ω :=
  signalEach host signal supervisor.entries w

/-! ## Waiting -/

/-- One round of waiting: a look, and if children are left a pause; after it the clock is read
when there is a deadline.  Gives whether all children have ended, once that is settled. -/
def waitRound (host : Host ω) (interval : Nat) (deadline : Option Nat) :
    Supervisor σ × σ × ω → (Supervisor σ × σ × ω) ⊕ (Bool × Supervisor σ × σ × ω)
  | (supervisor, s, w) =>
    match supervisor.poll host s w with
    | (false, supervisor, s, w) => .inr (true, supervisor, s, w)
    | (true, supervisor, s, w) =>
      let w := host.sleep interval w
      match deadline with
      | none => .inl (supervisor, s, w)
      | some deadline =>
        let (now, w) := host.now w
        if deadline < now then .inr (false, supervisor, s, w) else .inl (supervisor, s, w)

/-- The time at which a wait of at most `maxWait` microseconds gives up, if it does. -/
def waitDeadline (host : Host ω) (maxWait : Option Nat) (w : ω) : Option Nat × ω :=
  match maxWait with
  | none => (none, w)
  | some maxWait =>
    let (now, w) := host.now w
    (deadline? now maxWait, w)

/-- Looks at the children until none are left or the wait gives up.  Says whether all have ended;
none when the fuel does not last that long. -/
def wait (host : Host ω) (fuel interval : Nat) (maxWait : Option Nat)
    (supervisor : Supervisor σ) (s : σ) (w : ω) : Option Bool × Supervisor σ × σ × ω :=
  let (deadline, w) := waitDeadline host maxWait w
  match iterate (waitRound host interval deadline) fuel (supervisor, s, w) with
  | .inl (supervisor, s, w) => (none, supervisor, s, w)
  | .inr (finished, supervisor, s, w) => (some finished, supervisor, s, w)

/-- Gives up the registry: the pipes of the children are released, and the children live on. -/
def release (host : Host ω) (supervisor : Supervisor σ) (w : ω) : ω :=
  supervisor.entries.foldl
    (fun w entry =>
      ([entry.child.stdin, entry.child.stdout, entry.child.stderr].filterMap id).foldl
        (fun w d => host.close d w) w) w

end Supervisor

end Chaperone
