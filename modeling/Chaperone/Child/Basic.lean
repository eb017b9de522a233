import Chaperone.Host
import Chaperone.Process.Event

/-!
# Children

A `Child` is a program that was started, together with the supervisor's ends of its pipes and what
waits to be written to them.  All calls return at once unless their name says that they wait.

Once the exit of a child has been seen its status stays, and all pipes are released.  What was in
the output pipes at that moment is kept as a residue and is what the next read calls give.
-/

namespace Chaperone

/-- A program that was started. -/
structure Child where
  pid : Pid
  stdin : Option Descriptor
  stdout : Option Descriptor
  stderr : Option Descriptor
  /-- Input that the pipe has not taken yet. -/
  pendingInput : List UInt8 := []
  /-- Whether standard input is closed once the pipe has taken all input. -/
  closeWhenFlushed : Bool := false
  stdoutResidue : List UInt8 := []
  stderrResidue : List UInt8 := []
  /-- Whether the child leads a process group of its own. -/
  leadsGroup : Bool
  /-- How the child ended, once that has been seen. -/
  status : Option ExitStatus := none
  deriving DecidableEq, Repr, Inhabited

namespace Child

/-- Whether the exit has been seen. -/
def exited (child : Child) : Bool := child.status.isSome

/-- The number of the child's process group, if it leads one. -/
def group? (child : Child) : Option Pid := if child.leadsGroup then some child.pid else none

/-- Whether standard input can take data. -/
def stdinOpen (child : Child) : Bool := child.stdin.isSome

/-- Whether input waits for the pipe. -/
def hasPendingInput (child : Child) : Bool := !child.pendingInput.isEmpty

/-- Whether there may be more output. -/
def hasOpenOutput (child : Child) : Bool :=
  child.stdout.isSome || child.stderr.isSome || !child.stdoutResidue.isEmpty ||
    !child.stderrResidue.isEmpty

/-- The pipe of an output stream. -/
def pipe (child : Child) : OutputStream → Option Descriptor
  | .stdout => child.stdout
  | .stderr => child.stderr

/-- The residue of an output stream. -/
def residue (child : Child) : OutputStream → List UInt8
  | .stdout => child.stdoutResidue
  | .stderr => child.stderrResidue

/-- The child without the pipe of an output stream. -/
def withoutPipe (child : Child) : OutputStream → Child
  | .stdout => { child with stdout := none }
  | .stderr => { child with stderr := none }

/-- The child with another residue of an output stream. -/
def withResidue (child : Child) (bytes : List UInt8) : OutputStream → Child
  | .stdout => { child with stdoutResidue := bytes }
  | .stderr => { child with stderrResidue := bytes }

end Child

end Chaperone
