import Chaperone.Launch.Resolve

/-!
# The machine as a supervisor sees it

A `Host` is a record of the calls that a supervisor makes to the operating system.  Each call takes
the state of the machine and gives its result and the state after it, so a run of the supervisor is
a function of the machine, whatever that machine is.

A call may be interrupted and is then made again.  That this ends is a property of the machine:
`patience` bounds how often in a row it interrupts.
-/

namespace Chaperone

/-- The supervisor's end of a pipe. -/
abbrev Descriptor := Nat

/-- What reading from a pipe gives. -/
inductive ReadResult where
  /-- Some bytes; none at the end of the stream. -/
  | bytes (chunk : List UInt8)
  | wouldBlock
  | interrupted
  | failed (cause : SystemError)
  deriving DecidableEq, Repr, Inhabited

/-- What writing to a pipe gives. -/
inductive WriteResult where
  /-- The pipe took the first `count` bytes. -/
  | wrote (count : Nat)
  | wouldBlock
  | interrupted
  /-- Nobody can read from the pipe any more. -/
  | brokenPipe
  | failed (cause : SystemError)
  deriving DecidableEq, Repr, Inhabited

/-- What asking for the status of a child gives. -/
inductive ReapResult where
  /-- The child has ended, with this status word. -/
  | ended (word : UInt32)
  | running
  | failed (errno : Errno)
  deriving DecidableEq, Repr, Inhabited

/-- Whom a signal is sent to. -/
inductive Target where
  | process (pid : Pid)
  /-- All processes of the group that `pid` leads. -/
  | group (pid : Pid)
  deriving DecidableEq, Repr, Inhabited

/-- What the end of a pipe is watched for. -/
inductive Interest where
  | input
  | output
  deriving DecidableEq, Repr, Inhabited

/-- A program to start, with everything about it settled. -/
structure LaunchRequest where
  path : String
  /-- What the program is told that it is called. -/
  name : String
  args : List String
  directory : Option String
  vars : List (String × String)
  stdin : Connection
  stdout : Connection
  stderr : Connection
  /-- Whether the program leads a session and process group of its own. -/
  newSession : Bool
  deriving Repr, Inhabited

namespace LaunchRequest

/-- The variables as the program has them, which it is handed as texts. -/
def given (request : LaunchRequest) : List (String × String) := takeOver (handOver request.vars)

/-- What the program finds under a name. -/
def find? (request : LaunchRequest) (name : String) : Option String := request.given.lookup name

end LaunchRequest

/-- A program that was started, with the supervisor's ends of its pipes, none of which blocks. -/
structure Launched where
  pid : Pid
  stdin : Option Descriptor
  stdout : Option Descriptor
  stderr : Option Descriptor
  deriving DecidableEq, Repr, Inhabited

/-- The supervisor's ends of the pipes of a program. -/
def Launched.pipes (launched : Launched) : List Descriptor :=
  [launched.stdin, launched.stdout, launched.stderr].filterMap id

/-- The calls of a supervisor to a machine with states `ω`.  Times are in microseconds. -/
structure Host (ω : Type) where
  read : Descriptor → Nat → ω → ReadResult × ω
  write : Descriptor → List UInt8 → ω → WriteResult × ω
  close : Descriptor → ω → ω
  /-- Asks for the status of a child and does not wait for it. -/
  reap : Pid → ω → ReapResult × ω
  /-- Waits until a child has ended. -/
  await : Pid → ω → Except Errno UInt32 × ω
  kill : Target → Signal → ω → Except Errno Unit × ω
  /-- Waits until one of the pipes is ready or so many milliseconds have passed. -/
  watch : List (Descriptor × Interest) → Nat → ω → Except Errno Unit × ω
  sleep : Nat → ω → ω
  /-- A clock that never goes back. -/
  now : ω → Nat × ω
  start : LaunchRequest → ω → Except SystemError Launched × ω
  view : ω → FileView
  /-- The bytes of a file. -/
  readFile : String → ω → Except SystemError (List UInt8) × ω
  /-- The time of day in milliseconds since 1970. -/
  wallClock : ω → Nat
  /-- How often in a row calls may still be interrupted. -/
  patience : ω → Nat
  patience_read : ∀ {d n w w'}, read d n w = (.interrupted, w') → patience w' < patience w
  patience_write : ∀ {d bytes w w'}, write d bytes w = (.interrupted, w') → patience w' < patience w
  /-- No call gives more bytes than it was asked for. -/
  length_read : ∀ {d n w chunk w'}, read d n w = (.bytes chunk, w') → chunk.length ≤ n
  /-- No call takes more bytes than it was given. -/
  count_write : ∀ {d bytes w count w'}, write d bytes w = (.wrote count, w') → count ≤ bytes.length
  /-- The pipes of a program are different ones. -/
  nodup_start : ∀ {request w launched w'}, start request w = (.ok launched, w') →
    launched.pipes.Nodup

/-- The last second that the clock can name. -/
def lastSecond : Nat := 0x7FFFFFFFFFFFFFFF

/-- The time `after` microseconds from `now`, if the clock can name it. -/
def deadline? (now after : Nat) : Option Nat :=
  if (now + after) / 1000000 ≤ lastSecond then some (now + after) else none

end Chaperone
