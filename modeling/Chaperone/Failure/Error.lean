import Chaperone.Failure.System
import Chaperone.Process.Status

/-!
# What can go wrong

Each kind of failure has a code that stays the same whatever the details, and a text that names
them.
-/

namespace Chaperone

/-- Why a program could not be launched. -/
inductive SpawnError where
  | notFound (executable : String)
  | permissionDenied (path : String)
  | osFailure (executable : String) (source : SystemError)
  deriving DecidableEq, Repr, Inhabited

namespace SpawnError

/-- The text of a failure. -/
def message : SpawnError → String
  | .notFound executable => "executable not found: " ++ executable
  | .permissionDenied path => "permission denied executing " ++ path
  | .osFailure executable source => "failed to spawn " ++ executable ++ ": " ++ source.message

/-- The number of the system call's failure, if a system call failed. -/
def errno? : SpawnError → Option Errno
  | .osFailure _ source => source.errno?
  | _ => none

end SpawnError

/-- Why data could not be delivered to a child's standard input. -/
inductive WriteError where
  | closed (pid : Pid)
  | osFailure (pid : Pid) (source : SystemError)
  deriving DecidableEq, Repr, Inhabited

/-- The text of a failure. -/
def WriteError.message : WriteError → String
  | .closed pid => "stdin of process " ++ toString pid.toNat ++ " is closed"
  | .osFailure pid source =>
    "failed to write to stdin of process " ++ toString pid.toNat ++ ": " ++ source.message

/-- A request that a process end. -/
inductive Signal where
  /-- The process may tidy up first, or refuse. -/
  | terminate
  /-- The process ends at once. -/
  | kill
  deriving DecidableEq, Repr, Inhabited

namespace Signal

/-- The request, with or without force. -/
def ofForce (force : Bool) : Signal := if force then .kill else .terminate

/-- The name of a signal. -/
def name : Signal → String
  | .terminate => "SIGTERM"
  | .kill => "SIGKILL"

/-- The number of a signal. -/
def number : Signal → Nat
  | .terminate => 15
  | .kill => 9

end Signal

/-- Why a signal could not be sent. -/
structure TerminateError where
  pid : Pid
  signal : Signal
  errno : Errno
  deriving DecidableEq, Repr, Inhabited

/-- The text of a failure. -/
def TerminateError.message (e : TerminateError) : String :=
  "failed to send " ++ e.signal.name ++ " to process " ++ toString e.pid.toNat ++ ": " ++
    e.errno.named

/-- What can go wrong while programs are launched, run and supervised. -/
inductive Error where
  | spawn (cause : SpawnError)
  | write (cause : WriteError)
  | terminate (cause : TerminateError)
  | wait (reason : String)
  | configuration (reason : String)
  | validation (reason : String)
  | initialization (reason : String)
  | io (cause : SystemError)
  deriving DecidableEq, Repr, Inhabited

namespace Error

/-- The code of a kind of failure. -/
def code : Error → String
  | .configuration _ => "CORE001"
  | .validation _ => "CORE002"
  | .initialization _ => "CORE003"
  | .io _ => "CORE005"
  | .spawn _ => "CORE010"
  | .write _ => "CORE011"
  | .terminate _ => "CORE012"
  | .wait _ => "CORE013"

/-- The text of a failure. -/
def message : Error → String
  | .spawn cause => "Spawn error: " ++ cause.message
  | .write cause => "Write error: " ++ cause.message
  | .terminate cause => "Terminate error: " ++ cause.message
  | .wait reason => "Process wait error: " ++ reason
  | .configuration reason => "Configuration error: " ++ reason
  | .validation reason => "Validation error: " ++ reason
  | .initialization reason => "Initialization error: " ++ reason
  | .io cause => "I/O error: " ++ cause.message

/-- Whether a program could not be launched because there is none of that name. -/
def isNotFound : Error → Bool
  | .spawn (.notFound _) => true
  | _ => false

/-- The failure to set up logging a second time; it can be set up once. -/
def alreadyInitialized : Error :=
  .initialization "a global default trace dispatcher has already been set"

end Error

/-- What can go wrong in a command. -/
inductive CommandError where
  | failed (reason : String)
  | invalidArgument (reason : String)
  | configuration (reason : String)
  | core (cause : Error)
  | io (cause : SystemError)
  deriving DecidableEq, Repr, Inhabited

namespace CommandError

/-- The code of a kind of failure. -/
def code : CommandError → String
  | .failed _ => "CLI001"
  | .invalidArgument _ => "CLI002"
  | .configuration _ => "CLI003"
  | .core cause => cause.code
  | .io _ => "CLI008"

/-- The text of a failure. -/
def message : CommandError → String
  | .failed reason => "Command failed: " ++ reason
  | .invalidArgument reason => "Invalid argument: " ++ reason
  | .configuration reason => "Configuration error: " ++ reason
  | .core cause => cause.message
  | .io cause => "I/O error: " ++ cause.message

end CommandError

end Chaperone
