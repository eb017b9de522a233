import Chaperone.Failure.Error
import Chaperone.Process.Program
import Chaperone.Text.Blank
import Chaperone.Toml.Reader

/-!
# Supervision plans

A plan lists the programs to launch together and says how to wait for them.  It is written in
TOML; a plan that can be read may still be refused, and then the first violation in the order of
the checks is reported.
-/

namespace Chaperone

/-- Programs to launch together, and how to wait for them. -/
structure Plan where
  /-- The pause between two looks at the programs. -/
  pollingIntervalMs : Nat := 50
  /-- How long to wait for the programs; forever if absent. -/
  maxWaitMs : Option Nat := none
  /-- Whether the programs that are left at the end of the wait are killed. -/
  terminateOnTimeout : Bool := true
  programs : List Program
  deriving DecidableEq, Repr, Inhabited

/-- What is wrong with one program of a plan. -/
inductive ProgramFault where
  | blankName
  | duplicateName (name : String)
  | blankCommand
  | argsWithShell
  | blankVariable
  | emptyWorkingDirectory
  deriving DecidableEq, Repr

/-- What is wrong with a plan. -/
inductive Violation where
  | zeroInterval
  | noPrograms
  | program (index : Nat) (fault : ProgramFault)
  deriving DecidableEq, Repr

/-- The place and the text of a fault. -/
def ProgramFault.message : ProgramFault → String
  | .blankName => "name: cannot be empty"
  | .duplicateName name => "name: duplicate name '" ++ name ++ "'"
  | .blankCommand => "command: cannot be empty"
  | .argsWithShell => "args: not allowed when shell = true"
  | .blankVariable => "environment: keys cannot be empty"
  | .emptyWorkingDirectory => "workingDirectory: cannot be empty"

/-- The text of a violation. -/
def Violation.message : Violation → String
  | .zeroInterval => "pollingIntervalMs: must be > 0"
  | .noPrograms => "programs: must contain at least one program"
  | .program index fault => "programs[" ++ toString index ++ "]." ++ fault.message

/-- The first fault of a program after programs with the names `seen`. -/
def Program.fault? (seen : List String) (program : Program) : Option ProgramFault :=
  if Text.isBlank program.name then some .blankName
  else if seen.contains program.name then some (.duplicateName program.name)
  else if Text.isBlank program.command then some .blankCommand
  else if program.shell && !program.args.isEmpty then some .argsWithShell
  else if program.environment.names.any Text.isBlank then some .blankVariable
  else if program.workingDirectory = some "" then some .emptyWorkingDirectory
  else none

/-- The first violation among programs, of which the first one has the number `index`. -/
def violationFrom (seen : List String) (index : Nat) : List Program → Option Violation
  | [] => none
  | program :: rest =>
    match program.fault? seen with
    | some fault => some (.program index fault)
    | none => violationFrom (program.name :: seen) (index + 1) rest

namespace Plan

/-- The first violation of a plan. -/
def violation? (plan : Plan) : Option Violation :=
  if plan.pollingIntervalMs = 0 then some .zeroInterval
  else if plan.programs.isEmpty then some .noPrograms
  else violationFrom [] 0 plan.programs

/-- Accepts a plan that violates nothing. -/
def validate (plan : Plan) : Except Error Unit :=
  match plan.violation? with
  | some violation => .error (.validation violation.message)
  | none => .ok ()

/-- The fields of the document form. -/
def rules : List FieldRule :=
  [ .optional "pollingIntervalMs" Decode.nat64,
    .optional "maxWaitMs" (Decode.nullable Decode.nat64),
    .optional "terminateOnTimeout" Decode.bool,
    .needed "programs" (Decode.list Program.decode) ]

/-- A plan from its document form. -/
def decode : Decode Plan := fun delivery d => do
  let fields ← Fields.read "struct SupervisionFile" rules delivery d
  return {
    pollingIntervalMs := ← fields.getD delivery "pollingIntervalMs" Decode.nat64 50
    maxWaitMs := ← fields.getD delivery "maxWaitMs" (Decode.nullable Decode.nat64) none
    terminateOnTimeout := ← fields.getD delivery "terminateOnTimeout" Decode.bool true
    programs := ← fields.get delivery "programs" (Decode.list Program.decode) }

/-- Why a text could not be read as a plan, before any check. -/
def unreadable (reason : String) : Error := .configuration ("TOML parse error: " ++ reason)

/-- The plan that a text writes, checked. -/
def ofToml (text : String) : Except Error Plan :=
  match Toml.read text with
  | none => .error (unreadable "<syntax>")
  | some d =>
    match decode .table d with
    | .error mistake => .error (unreadable mistake.message)
    | .ok plan => plan.validate.map fun _ => plan

end Plan

end Chaperone
