import Chaperone.Document.Decode

/-!
# What a process that ran to its end left behind
-/

namespace Chaperone

/-- The output and the exit status of a process that ran to its end. -/
structure RunResult where
  /-- The integer form of the exit status. -/
  exitStatus : Int32
  stdout : String
  stderr : String
  deriving DecidableEq, Repr, Inhabited

namespace RunResult

/-- Whether the process ended with code 0. -/
def success (result : RunResult) : Bool := result.exitStatus == 0

/-- The document form of a result. -/
def toDatum (result : RunResult) : Datum :=
  .object
    [ ("exitStatus", .int result.exitStatus.toInt),
      ("stdOut", .string result.stdout),
      ("stdErr", .string result.stderr) ]

/-- The fields of the document form. -/
def rules : List FieldRule :=
  [ .needed "exitStatus" Decode.int32,
    .needed "stdOut" Decode.text,
    .needed "stdErr" Decode.text ]

/-- A result from its document form. -/
def decode : Decode RunResult := fun delivery d => do
  let fields ← Fields.read "struct ProcessResult" rules delivery d
  return {
    exitStatus := Int32.ofInt (← fields.get delivery "exitStatus" Decode.int32)
    stdout := ← fields.get delivery "stdOut" Decode.text
    stderr := ← fields.get delivery "stdErr" Decode.text }

end RunResult

end Chaperone
