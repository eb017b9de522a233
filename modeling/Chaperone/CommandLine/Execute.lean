import Chaperone.CommandLine.Invocation
import Chaperone.Run
import Chaperone.Supervise.Basic
import Chaperone.Supervise.Load

/-!
# Carrying out what a command line asks for

The program that `run` starts lends its output and its exit code to the whole program.  Under
`supervise` the exit code says whether all went well.
-/

namespace Chaperone.CommandLine

variable {ω : Type}

/-- What is left of a run of the whole program. -/
structure Ending where
  code : Int
  stdout : String := ""
  stderr : String := ""
  deriving DecidableEq, Repr, Inhabited

namespace Ending

/-- A run that failed. -/
def ofError (e : CommandError) : Ending :=
  { code := 1, stderr := "chaperone: " ++ e.message ++ " (" ++ e.code ++ ")\n" }

/-- A run in which one program was run. -/
def ofResult (result : RunResult) : Ending :=
  { code := (shellExitCode result.exitStatus).toInt % 256
    stdout := result.stdout
    stderr := result.stderr }

end Ending

/-- Why a command line of the shell takes no arguments. -/
def argumentsWithShell : CommandError :=
  .invalidArgument "arguments cannot be combined with --shell; put them in the command line"

/-- Runs one program, or with `inShell` one command line of the shell, to its end.  None when the
fuel does not last that long. -/
def runOnce (host : Host ω) (fuel : Nat) (inShell : Bool) (command : String) (args : List String)
    (input : String) (options : LaunchOptions) (w : ω) :
    Option (Except CommandError RunResult) × ω :=
  if inShell && !args.isEmpty then (some (.error argumentsWithShell), w)
  else
    let (result, w) :=
      if inShell then runCommand host fuel command input options w
      else runProgram host fuel command args input options w
    (result.map (·.mapError .core), w)

/-- The options of the program that is to be run. -/
def RunRequest.options (request : RunRequest) : LaunchOptions where
  workingDirectory := request.directory
  environment := request.settings.foldl (fun all (name, value) => all.insert name value) .empty
  environmentBase := if request.clearEnvironment then .clear else .inherit

/-- Carries out a plan and keeps the report. -/
def supervise (host : Host ω) (fuel : Nat) (config : String) (json : Bool) (w : ω) :
    Option Ending × ω :=
  match Plan.load host config w with
  | (.error e, w) => (some (.ofError (.configuration e.message)), w)
  | (.ok plan, w) =>
    let reporter : Supervise.Reporter String := ⟨.keeping, if json then .json else .text⟩
    let (summary, report, w) := Supervise.run host fuel plan reporter "" w
    (summary.map fun summary => { code := if summary.success then 0 else 1, stdout := report }, w)

/-- Carries out what a command line asks for. -/
def Invocation.execute (host : Host ω) (fuel : Nat) (w : ω) : Invocation → Option Ending × ω
  | .version => (some { code := 0, stdout := CommandLine.version }, w)
  | .help level true => (some { code := 0, stdout := level.helpText }, w)
  | .help level false => (some { code := 2, stderr := level.helpText }, w)
  | .supervise config json => CommandLine.supervise host fuel config json w
  | .run request =>
    let (result, w) := runOnce host fuel request.shell request.command request.args request.input
      request.options w
    (result.map fun
      | .ok result => .ofResult result
      | .error e => .ofError e, w)

/-- Runs the whole program with the words of a command line. -/
def execute (host : Host ω) (fuel : Nat) (words : List String) (w : ω) : Option Ending × ω :=
  match Invocation.read words with
  | .ok invocation => invocation.execute host fuel w
  | .error e => (some { code := 2, stderr := e.text }, w)

end Chaperone.CommandLine
