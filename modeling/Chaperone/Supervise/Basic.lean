import Chaperone.Supervise.Plan
import Chaperone.Supervise.Report
import Chaperone.Supervisor.Basic
import Chaperone.Text.Timestamp

/-!
# Carrying out a plan

All programs of a plan are launched under one supervisor, and what they do is brought to a `Desk`,
which is anything that takes events; a `Reporter` is one that writes them to a sink.  A program that
cannot be launched is reported and left out.  If the wait for the others gives up, they are killed
and waited for, or left alone, as the plan says.  Every program has one outcome in the end.
-/

namespace Chaperone

/-- What became of a program. -/
inductive Outcome where
  | failedToStart (error : String)
  | exited (status : ExitStatus)
  /-- It was still running when the wait gave up. -/
  | abandoned
  deriving DecidableEq, Repr, Inhabited

/-- What became of the programs of a plan. -/
structure Summary where
  /-- The name and the outcome of each program, in the order of the plan. -/
  outcomes : List (String × Outcome)
  /-- Whether the wait gave up. -/
  timedOut : Bool
  deriving DecidableEq, Repr, Inhabited

namespace Outcome

/-- Whether the program was launched and ended with code 0. -/
def success : Outcome → Bool
  | .exited status => status.success
  | _ => false

/-- An outcome for diagnostics. -/
def inspect : Outcome → String
  | .failedToStart error => "FailedToStart(" ++ Text.quoted error ++ ")"
  | .exited status => "Exited(" ++ status.inspect ++ ")"
  | .abandoned => "Abandoned"

end Outcome

namespace Summary

/-- Whether every program was launched and ended with code 0 in time. -/
def success (summary : Summary) : Bool :=
  !summary.timedOut && summary.outcomes.all fun (_, outcome) => outcome.success

/-- A summary for diagnostics. -/
def inspect (summary : Summary) : String :=
  let outcome (name : String) (outcome : Outcome) : String :=
    "(" ++ Text.quoted name ++ ", " ++ outcome.inspect ++ ")"
  "SuperviseSummary \x7b outcomes: [" ++
    ", ".intercalate (summary.outcomes.map fun (name, o) => outcome name o) ++
    "], timed_out: " ++ (if summary.timedOut then "true" else "false") ++ " \x7d"

end Summary

namespace Supervise

variable {κ ω : Type}

/-- What the callbacks of all programs share: what the desk keeps, and how programs ended, by their
places in the plan. -/
structure Record (κ : Type) where
  kept : κ
  exits : List (Nat × ExitStatus) := []

/-- What the callbacks of a program remember: its number, which is known once it runs, and the
unfinished lines of its output. -/
structure Notes where
  pid : Pid := 0
  stdout : Text.LineBuffer := {}
  stderr : Text.LineBuffer := {}
  deriving DecidableEq, Repr, Inhabited

namespace Notes

/-- The unfinished line of a stream. -/
def buffer (notes : Notes) : OutputStream → Text.LineBuffer
  | .stdout => notes.stdout
  | .stderr => notes.stderr

/-- Another unfinished line of a stream. -/
def withBuffer (notes : Notes) (buffer : Text.LineBuffer) : OutputStream → Notes
  | .stdout => { notes with stdout := buffer }
  | .stderr => { notes with stderr := buffer }

end Notes

/-- Where the events of the programs of a plan go.  It takes each event with the place of its
program. -/
structure Desk (κ : Type) where
  format : Format
  note : Nat → Event → κ → κ

/-- Where and how the programs of a plan are reported. -/
structure Reporter (κ : Type) where
  sink : Sink κ
  format : Format

/-- The desk that reports every event. -/
def Reporter.desk (reporter : Reporter κ) : Desk κ where
  format := reporter.format
  note _ := reporter.sink.report reporter.format

namespace Desk

/-- Notes what happened to a program. -/
def report (desk : Desk κ) (place : Nat) (name : String) (happening : Happening) (time : Nat)
    (record : Record κ) : Record κ :=
  { record with kept := desk.note place ⟨name, happening, Text.timestamp time⟩ record.kept }

/-- Notes output that is there. -/
def reportOutput (desk : Desk κ) (place : Nat) (name : String) (stream : OutputStream) (pid : Pid)
    (time : Nat) (content : Option String) (record : Record κ) : Record κ :=
  match content with
  | none => record
  | some content => desk.report place name (.output pid stream content) time record

/-- Takes a piece of output.  In text form, only whole lines are reported before the end. -/
def takeOutput (desk : Desk κ) (place : Nat) (name : String) (stream : OutputStream) (time : Nat)
    (piece : String) (notes : Notes) (record : Record κ) : Notes × Record κ :=
  match desk.format with
  | .json => (notes, desk.reportOutput place name stream notes.pid time (some piece) record)
  | .text =>
    let (buffer, whole) := (notes.buffer stream).push piece
    (notes.withBuffer buffer stream,
      desk.reportOutput place name stream notes.pid time whole record)

/-- Takes the exit of a program: first its unfinished lines, then the exit itself. -/
def takeExit (desk : Desk κ) (place : Nat) (name : String) (time : Nat) (status : ExitStatus)
    (notes : Notes) (record : Record κ) : Record κ :=
  let record := desk.reportOutput place name .stdout notes.pid time notes.stdout.take.2 record
  let record := desk.reportOutput place name .stderr notes.pid time notes.stderr.take.2 record
  let record := desk.report place name (.exited notes.pid status) time record
  { record with exits := record.exits ++ [(place, status)] }

/-- The callbacks of the program at a place of the plan. -/
def callbacks (desk : Desk κ) (place : Nat) (program : Program) : Callbacks (Record κ) where
  Memory := Notes
  memory := {}
  onStarted := some fun occasion notes record =>
    let record := desk.report place program.name
      (.started occasion.pid program.command program.args) occasion.time record
    (Script.feed (program.input.getD "")).bind fun () =>
      .done ({ notes with pid := occasion.pid }, record)
  onStdout := some fun occasion piece notes record =>
    .done (desk.takeOutput place program.name .stdout occasion.time piece notes record)
  onStderr := some fun occasion piece notes record =>
    .done (desk.takeOutput place program.name .stderr occasion.time piece notes record)
  onExit := some fun occasion status notes record =>
    desk.takeExit place program.name occasion.time status notes record

end Desk

/-- Launches one program. -/
def launch (host : Host ω) (program : Program) (callbacks : Callbacks (Record κ))
    (supervisor : Supervisor (Record κ)) (record : Record κ) (w : ω) :
    Except Error Pid × Supervisor (Record κ) × Record κ × ω :=
  if program.shell then
    supervisor.runCommand host program.command program.options callbacks record w
  else
    supervisor.runProgram host program.command program.args program.options callbacks record w

/-- Launches programs, of which the first one has the given place.  Gives for each one the failure
to launch it, if there was one. -/
def launchAll (host : Host ω) (desk : Desk κ) :
    Nat → List Program → Supervisor (Record κ) → Record κ → ω →
      List (Option Error) × Supervisor (Record κ) × Record κ × ω
  | _, [], supervisor, record, w => ([], supervisor, record, w)
  | place, program :: rest, supervisor, record, w =>
    match launch host program (desk.callbacks place program) supervisor record w with
    | (.ok _, supervisor, record, w) =>
      let (failures, supervisor, record, w) :=
        launchAll host desk (place + 1) rest supervisor record w
      (none :: failures, supervisor, record, w)
    | (.error cause, supervisor, record, w) =>
      let record := desk.report place program.name (.spawnFailed cause.message)
        (host.wallClock w) record
      let (failures, supervisor, record, w) :=
        launchAll host desk (place + 1) rest supervisor record w
      (some cause :: failures, supervisor, record, w)

/-- The outcome of the program at a place. -/
def outcome (exits : List (Nat × ExitStatus)) (place : Nat) : Option Error → Outcome
  | some cause => .failedToStart cause.message
  | none =>
    match exits.lookup place with
    | some status => .exited status
    | none => .abandoned

/-- The outcomes of programs, of which the first one has the given place. -/
def outcomes (exits : List (Nat × ExitStatus)) :
    Nat → List Program → List (Option Error) → List (String × Outcome)
  | place, program :: programs, failure :: failures =>
    (program.name, outcome exits place failure) :: outcomes exits (place + 1) programs failures
  | _, _, _ => []

/-- The summary of a plan when everything is over. -/
def summary (plan : Plan) (failures : List (Option Error)) (record : Record κ) (timedOut : Bool) :
    Summary :=
  ⟨outcomes record.exits 0 plan.programs failures, timedOut⟩

/-- Carries out a plan.  None when the fuel does not last that long. -/
def carryOut (host : Host ω) (fuel : Nat) (plan : Plan) (desk : Desk κ) (kept : κ) (w : ω) :
    Option Summary × κ × ω :=
  let interval := plan.pollingIntervalMs * 1000
  let (failures, supervisor, record, w) :=
    launchAll host desk 0 plan.programs .new { kept } w
  match supervisor.wait host fuel interval (plan.maxWaitMs.map (· * 1000)) record w with
  | (none, _, record, w) => (none, record.kept, w)
  | (some true, _, record, w) => (some (summary plan failures record false), record.kept, w)
  | (some false, supervisor, record, w) =>
    if plan.terminateOnTimeout then
      let w := supervisor.signalAll host .kill w
      match supervisor.wait host fuel interval none record w with
      | (none, _, record, w) => (none, record.kept, w)
      | (some _, _, record, w) => (some (summary plan failures record true), record.kept, w)
    else
      (some (summary plan failures record true), record.kept, supervisor.release host w)

/-- Carries out a plan and reports its events. -/
def run (host : Host ω) (fuel : Nat) (plan : Plan) (reporter : Reporter κ) (sink : κ) (w : ω) :
    Option Summary × κ × ω :=
  carryOut host fuel plan reporter.desk sink w

end Supervise

end Chaperone
