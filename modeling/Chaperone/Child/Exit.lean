import Chaperone.Child.Input
import Chaperone.Child.Output
import Chaperone.Loop

/-!
# The end of a child

A child that somebody else has asked the system about can no longer be asked about; its status is
lost and is recorded as exit code -1.
-/

namespace Chaperone.Child

variable {ω : Type}

/-- Records how the child ended: what is left in the output pipes is kept and every pipe is
released. -/
def recordExit (host : Host ω) (status : ExitStatus) (child : Child) (w : ω) : Child × ω :=
  let (child, w) := child.keepRest host .stdout w
  let (child, w) := child.keepRest host .stderr w
  let (child, w) := child.releasePipe host .stdout w
  let (child, w) := child.releasePipe host .stderr w
  let (child, w) := child.closeStdin host w
  ({ child with status := some status }, w)

/-- Looks whether the child has ended. -/
def tryWait (host : Host ω) (child : Child) (w : ω) :
    Except SystemError (Option ExitStatus) × Child × ω :=
  match child.status with
  | some status => (.ok (some status), child, w)
  | none =>
    let record (status : ExitStatus) (w : ω) :
        Except SystemError (Option ExitStatus) × Child × ω :=
      let (child, w) := child.recordExit host status w
      (.ok (some status), child, w)
    match host.reap child.pid w with
    | (.ended word, w) => record (.ofWaitWord word) w
    | (.running, w) => (.ok none, child, w)
    | (.failed errno, w) =>
      if errno = Errno.noChild then record .lost w else (.error (.os errno), child, w)

/-- Waits until the child has ended.  A child that waits for room in a full pipe never does. -/
def wait (host : Host ω) (child : Child) (w : ω) : Except SystemError ExitStatus × Child × ω :=
  match child.status with
  | some status => (.ok status, child, w)
  | none =>
    let record (status : ExitStatus) (w : ω) : Except SystemError ExitStatus × Child × ω :=
      let (child, w) := child.recordExit host status w
      (.ok status, child, w)
    match host.await child.pid w with
    | (.ok word, w) => record (.ofWaitWord word) w
    | (.error errno, w) =>
      if errno = Errno.noChild then record .lost w else (.error (.os errno), child, w)

/-- The pipes that can make a difference to the supervisor: output that is open, and standard input
while data waits for it. -/
def watched (child : Child) : List (Descriptor × Interest) :=
  (child.stdout.map (·, Interest.input)).toList ++ (child.stderr.map (·, Interest.input)).toList ++
    if child.hasPendingInput then (child.stdin.map (·, Interest.output)).toList else []

/-- Waits until one of the watched pipes is ready, for so many milliseconds at most; without any
it just waits.  An interruption ends the wait and is no failure. -/
def waitForIo (host : Host ω) (milliseconds : Nat) (child : Child) (w : ω) :
    Except SystemError Unit × ω :=
  match child.watched with
  | [] => (.ok (), host.sleep (milliseconds * 1000) w)
  | pipes =>
    match host.watch pipes (min milliseconds 0x7FFFFFFF) w with
    | (.ok (), w) => (.ok (), w)
    | (.error errno, w) =>
      if errno = Errno.interrupted then (.ok (), w) else (.error (.os errno), w)

/-- Whom the signals for the child are sent to. -/
def target (child : Child) : Target :=
  if child.leadsGroup then .group child.pid else .process child.pid

/-- Sends the child a signal, unless its exit has been seen.  That there is nobody left to take it
is no failure. -/
def signal (host : Host ω) (signal : Signal) (child : Child) (w : ω) :
    Except TerminateError Unit × ω :=
  if child.exited then (.ok (), w)
  else
    match host.kill child.target signal w with
    | (.ok (), w) => (.ok (), w)
    | (.error errno, w) =>
      if errno = Errno.noProcess || errno = Errno.notPermitted then (.ok (), w)
      else (.error ⟨child.pid, signal, errno⟩, w)

/-! ## Ending a child in two steps -/

/-- The pause between two looks at a child that should end, in microseconds. -/
def lookInterval : Nat := 20000

/-- How long a killed child may take to end, in microseconds. -/
def killWindow : Nat := 5000000

/-- One look at a child that should end before `window` microseconds from `start` have passed.
Gives none when they have. -/
def lookForExit (host : Host ω) (start window : Nat) :
    Child × ω → (Child × ω) ⊕ (Except SystemError (Option ExitStatus) × Child × ω)
  | (child, w) =>
    match child.tryWait host w with
    | (.ok none, child, w) =>
      let (now, w) := host.now w
      if window ≤ now - start then .inr (.ok none, child, w)
      else .inl (child, host.sleep lookInterval w)
    | answer => .inr answer

/-- Looks at a child until it has ended or the window has passed. -/
def waitUntil (host : Host ω) (fuel window : Nat) (child : Child) (w : ω) :
    Option (Except SystemError (Option ExitStatus)) × Child × ω :=
  let (start, w) := host.now w
  match iterate (lookForExit host start window) fuel (child, w) with
  | .inl (child, w) => (none, child, w)
  | .inr (answer, child, w) => (some answer, child, w)

/-- Why a child is given up. -/
def survived (pid : Pid) : Error :=
  .wait ("Process " ++ toString pid.toNat ++ " did not exit even after SIGKILL within 5s")

/-- Asks the child to end, waits for that, and kills it when it has not ended by then.  None when
the fuel does not last that long. -/
def terminateWithTimeout (host : Host ω) (fuel grace : Nat) (child : Child) (w : ω) :
    Option (Except Error ExitStatus) × Child × ω :=
  match child.signal host .terminate w with
  | (.error cause, w) => (some (.error (.terminate cause)), child, w)
  | (.ok (), w) =>
    match child.waitUntil host fuel grace w with
    | (none, child, w) => (none, child, w)
    | (some (.error cause), child, w) => (some (.error (.io cause)), child, w)
    | (some (.ok (some status)), child, w) => (some (.ok status), child, w)
    | (some (.ok none), child, w) =>
      match child.signal host .kill w with
      | (.error cause, w) => (some (.error (.terminate cause)), child, w)
      | (.ok (), w) =>
        match child.waitUntil host fuel killWindow w with
        | (none, child, w) => (none, child, w)
        | (some (.error cause), child, w) => (some (.error (.io cause)), child, w)
        | (some (.ok (some status)), child, w) => (some (.ok status), child, w)
        | (some (.ok none), child, w) => (some (.error (survived child.pid)), child, w)

end Chaperone.Child
