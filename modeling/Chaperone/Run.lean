import Chaperone.Launch.Start
import Chaperone.Process.Result
import Chaperone.Child.Exit
import Chaperone.Text.Utf8

/-!
# Running a program to its end

One program is started and fed its input, its output is collected, and the caller waits for its
end.  Reading and writing take turns, so a program that fills one pipe while the runner is busy
with another cannot bring both to a halt.
-/

namespace Chaperone

variable {ω : Type}

/-- The longest wait for the pipes, in milliseconds. -/
def ioWait : Nat := 50

/-- A program on its way to its end, with the output collected so far. -/
structure Run where
  child : Child
  stdout : List UInt8 := []
  stderr : List UInt8 := []
  deriving DecidableEq, Repr, Inhabited

namespace Run

/-- Kills a child whose input could not be delivered. -/
def abandonInput (host : Host ω) (child : Child) (w : ω) : ω := (child.signal host .kill w).2

/-- Feeds the child its input, which ends there. -/
def feed (host : Host ω) (input : String) (child : Child) (w : ω) : Child × ω :=
  if input.isEmpty then child.closeStdin host w
  else
    match child.write host (Text.Utf8.encode input) true w with
    | (.ok (), child, w) => (child, w)
    | (.error _, child, w) => (child, abandonInput host child w)

/-- Writes queued input, if there is any. -/
def flush (host : Host ω) (child : Child) (w : ω) : Child × ω :=
  if child.hasPendingInput then
    match child.flushStdin host w with
    | (.ok (), child, w) => (child, w)
    | (.error _, child, w) => (child, abandonInput host child w)
  else (child, w)

/-- Collects what both output streams have. -/
def collect (host : Host ω) (run : Run) (w : ω) : Run × ω :=
  let (_, out, child, w) := run.child.readStream host .stdout w
  let (_, err, child, w) := child.readStream host .stderr w
  (⟨child, run.stdout ++ out, run.stderr ++ err⟩, w)

/-- What the program left behind. -/
def result (run : Run) (status : ExitStatus) : RunResult :=
  ⟨status.code, Text.Utf8.lossy run.stdout, Text.Utf8.lossy run.stderr⟩

/-- Waits for the end of a program whose output has ended. -/
def awaitEnd (host : Host ω) (run : Run) (w : ω) : (Run × ω) ⊕ (Except Error RunResult × ω) :=
  match run.child.wait host w with
  | (.ok status, _, w) => .inr (.ok (run.result status), w)
  | (.error cause, _, w) => .inr (.error (.io cause), w)

/-- Looks whether the program has ended, collects the rest of the output if it has, and waits for
the pipes if it has not. -/
def lookForEnd (host : Host ω) (run : Run) (w : ω) : (Run × ω) ⊕ (Except Error RunResult × ω) :=
  match run.child.tryWait host w with
  | (.error cause, _, w) => .inr (.error (.io cause), w)
  | (.ok (some status), child, w) =>
    let (run, w) := { run with child }.collect host w
    .inr (.ok (run.result status), w)
  | (.ok none, child, w) =>
    match child.waitForIo host ioWait w with
    | (.ok (), w) => .inl ({ run with child }, w)
    | (.error cause, w) => .inr (.error (.io cause), w)

/-- One round: write, read, and see whether the program has ended.  Only when there is nothing left
to read or write does the runner wait for the end itself. -/
def round (host : Host ω) : Run × ω → (Run × ω) ⊕ (Except Error RunResult × ω)
  | (run, w) =>
    let (child, w) := flush host run.child w
    let (run, w) := { run with child }.collect host w
    if !run.child.hasOpenOutput && !run.child.hasPendingInput then run.awaitEnd host w
    else run.lookForEnd host w

end Run

/-- Runs a program to its end.  None when the fuel does not last that long. -/
def runProgram (host : Host ω) (fuel : Nat) (executable : String) (args : List String)
    (input : String) (options : LaunchOptions) (w : ω) : Option (Except Error RunResult) × ω :=
  match spawn host executable args options w with
  | (.error cause, w) => (some (.error (.spawn cause)), w)
  | (.ok child, w) =>
    let (child, w) := Run.feed host input child w
    match iterate (Run.round host) fuel ({ child }, w) with
    | .inl (_, w) => (none, w)
    | .inr (result, w) => (some result, w)

/-- Runs a command line of the shell to its end. -/
def runCommand (host : Host ω) (fuel : Nat) (command : String) (input : String)
    (options : LaunchOptions) (w : ω) : Option (Except Error RunResult) × ω :=
  runProgram host fuel shell (shellArguments command) input options w

end Chaperone
