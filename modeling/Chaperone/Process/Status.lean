import Chaperone.Document.Decode

/-!
# How a process ended

An exit status keeps a normal exit and a termination by signal apart.  Its integer form is the exit
code or the negated signal number, so `-9` always means "killed by signal 9".
-/

namespace Chaperone

/-- The number of a process. -/
abbrev Pid := UInt32

/-- How a process ended. -/
inductive ExitStatus where
  /-- By itself, with a code. -/
  | exited (code : Int32)
  /-- By a signal. -/
  | signaled (signal : Int32)
  deriving DecidableEq, Repr, Inhabited

namespace ExitStatus

/-- The integer form: the exit code, or the negated signal number. -/
def code : ExitStatus → Int32
  | .exited code => code
  | .signaled signal => -signal

/-- Whether the process ended by itself with code 0. -/
def success : ExitStatus → Bool
  | .exited code => code == 0
  | .signaled _ => false

/-- The signal that ended the process. -/
def signal? : ExitStatus → Option Int32
  | .exited _ => none
  | .signaled signal => some signal

/-- The words for a status. -/
def display : ExitStatus → String
  | .exited code => "exit code " ++ toString code.toInt
  | .signaled signal => "signal " ++ toString signal.toInt

/-- A status with the names of its parts, for diagnostics. -/
def inspect : ExitStatus → String
  | .exited code => "Exited \x7b code: " ++ toString code.toInt ++ " \x7d"
  | .signaled signal => "Signaled \x7b signal: " ++ toString signal.toInt ++ " \x7d"

/-- The status of a child that nobody can ask the system about any more. -/
def lost : ExitStatus := .exited (-1)

/-- The status behind the 32-bit word that the system reports for a child.  The low seven bits are
zero after a normal exit, whose code is the next byte; they are all ones while the child is
stopped; else they are the number of the signal. -/
def ofWaitWord (word : UInt32) : ExitStatus :=
  let low := word &&& 0x7F
  if low = 0 then .exited ((word >>> 8) &&& 0xFF).toInt32
  else if low = 0x7F then lost
  else .signaled low.toInt32

/-- The document form of a status. -/
def toDatum : ExitStatus → Datum
  | .exited code => .object [("kind", .string "exited"), ("code", .int code.toInt)]
  | .signaled signal => .object [("kind", .string "signaled"), ("signal", .int signal.toInt)]

/-- The two kinds of status. -/
inductive Kind where
  | exited
  | signaled
  deriving DecidableEq, Repr

/-- The names of the kinds. -/
def kinds : List (String × Kind) := [("exited", .exited), ("signaled", .signaled)]

/-- The number that a status of a kind carries. -/
def decodeNumber (kind : Kind) (d : Datum) : Decoded ExitStatus :=
  let (record, name, build) : String × String × (Int32 → ExitStatus) :=
    match kind with
    | .exited => ("struct variant ExitStatus::Exited", "code", .exited)
    | .signaled => ("struct variant ExitStatus::Signaled", "signal", .signaled)
  do
    let fields ← Fields.read record [.needed name Decode.int32] .buffered d
    return build (Int32.ofInt (← fields.get .buffered name Decode.int32))

/-- A status from its document form. -/
def decode : Decode ExitStatus := Decode.tagged "ExitStatus" "kind" kinds decodeNumber

end ExitStatus

/-- The exit code that a shell reports for a command with this integer form of its status. -/
def shellExitCode (status : Int32) : Int32 := if status < 0 then 128 - status else status

end Chaperone
