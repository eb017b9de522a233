import Chaperone.Host
import Chaperone.Machine.Bytes
import Chaperone.Machine.Kernel

/-!
# A supervisor on the machine

`World.host` makes the modelled machine a host.  The supervisor is a process of the machine that
takes no turns: each of its calls first lets everything happen that comes before it.
-/

namespace Chaperone.Machine

/-- The machine as a supervisor has it: with its own number, place and variables. -/
structure World where
  kernel : Kernel := {}
  directory : Place := []
  vars : List (String × String) := []
  deriving Inhabited

/-- The number of the supervisor, which is also that of its process group. -/
def supervisorPid : Nat := 500

namespace World

/-- The world with another state of the machine. -/
def withKernel (w : World) (k : Kernel) : World := { w with kernel := k }

/-- Time that a call takes. -/
def spend (w : World) (microseconds : Nat) : World :=
  { w with kernel := { w.kernel with now := w.kernel.now + microseconds } }

/-! ## Pipes -/

/-- Reads from a pipe. -/
def readPipe (d : Descriptor) (count : Nat) (w : World) : ReadResult × World :=
  let k := w.kernel.settle
  match k.opened.lookup d with
  | some (.readEnd id) =>
    let pipe := k.pipe id
    if pipe.isEmpty then
      (if k.hasWriter id then .wouldBlock else .bytes [], (w.withKernel k).spend 1)
    else
      (.bytes (pipe.read count).2,
        (w.withKernel ((k.setPipe id (pipe.read count).1).stir)).spend 3)
  | _ => (.failed (.os badFile), w.withKernel k)

/-- Writes to a pipe. -/
def writePipe (d : Descriptor) (bytes : List UInt8) (w : World) : WriteResult × World :=
  let k := w.kernel.settle
  match k.opened.lookup d with
  | some (.writeEnd id) =>
    if !k.hasReader id then (.brokenPipe, (w.withKernel k).spend 1)
    else
      let written := (k.pipe id).write bytes
      if written.2 = 0 && !bytes.isEmpty then (.wouldBlock, (w.withKernel k).spend 1)
      else (.wrote written.2, (w.withKernel ((k.setPipe id written.1).stir)).spend 3)
  | _ => (.failed (.os badFile), w.withKernel k)

/-- Releases the end of a pipe. -/
def closePipe (d : Descriptor) (w : World) : World :=
  let k := w.kernel.settle
  (w.withKernel ({ k with held := k.held.filter (· ≠ d) }.tidy.stir)).spend 1

/-- Whether a call on the end of a pipe would not have to wait. -/
def isReady (k : Kernel) : Descriptor × Interest → Bool
  | (d, interest) =>
    match interest, k.opened.lookup d with
    | .input, some (.readEnd id) => !(k.pipe id).isEmpty || !k.hasWriter id
    | .output, some (.writeEnd id) => !(k.pipe id).isFull || !k.hasReader id
    | _, _ => true

/-- Waits for pipes. -/
def watchPipes (pipes : List (Descriptor × Interest)) (milliseconds : Nat) (w : World) :
    Except Errno Unit × World :=
  let k := w.kernel.settle
  let limit := k.now + milliseconds * 1000
  let k := k.runUntil (fun k => pipes.any (isReady k)) (some limit) Kernel.maxTurns
  (.ok (), (w.withKernel k).spend 2)

/-! ## Processes -/

/-- Takes the status of a child that has ended. -/
def reapChild (pid : Pid) (w : World) : ReapResult × World :=
  let k := w.kernel.settle
  let w := (w.withKernel k).spend 1
  match k.process? pid.toNat with
  | none => (.failed Errno.noChild, w)
  | some p =>
    match p.ended with
    | none => (.running, w)
    | some word =>
      (.ended (UInt32.ofNat word),
        w.withKernel { w.kernel with
          processes := w.kernel.processes.filter fun p => p.pid ≠ pid.toNat })

/-- Nothing will ever happen. -/
def deadlock : Errno := 35

/-- Waits for the end of a child and takes its status. -/
def awaitChild (pid : Pid) (w : World) : Except Errno UInt32 × World :=
  let ended (k : Kernel) : Bool :=
    match k.process? pid.toNat with
    | some p => !p.alive
    | none => true
  let w := w.withKernel (w.kernel.settle.runUntil ended none Kernel.maxTurns)
  match w.reapChild pid with
  | (.ended word, w) => (.ok word, w)
  | (.failed errno, w) => (.error errno, w)
  | (.running, w) => (.error deadlock, w)

/-- Sends a signal. -/
def killTarget (target : Target) (signal : Signal) (w : World) : Except Errno Unit × World :=
  let number : Int := match target with
    | .process pid => pid.toNat
    | .group pid => -(pid.toNat : Int)
  let (result, k) := w.kernel.settle.kill number signal.number
  (result, (w.withKernel k).spend 5)

/-! ## Starting programs -/

/-- How long one argument or variable may be, with the zero byte at its end. -/
def maxArgument : Nat := 131072

/-- How much room all arguments and variables have together. -/
def maxArguments : Nat := 2097152

/-- Whether arguments and variables fit. -/
def argumentsFit (args : List String) (vars : Variables) : Bool :=
  let sizes := args.map (·.length + 1) ++ vars.map fun (name, value) =>
    name.length + value.length + 2
  sizes.all (· ≤ maxArgument) && sizes.foldl (· + · + 8) 0 ≤ maxArguments

/-- The task of a program that is to be started.  A program with a session of its own is started
the way in which a file without any known form is taken for a script of the shell. -/
def loadProgram (w : World) (k : Kernel) (directory : Place) (request : LaunchRequest) :
    Except Errno Task :=
  let args := (request.name :: request.args).map ofText
  let vars := request.given.map fun (name, value) => (ofText name, ofText value)
  let path := ofText request.path
  if !argumentsFit args vars then .error Errno.tooBig
  else
    match k.files.find directory path with
    | .error errno => .error errno
    | .ok (place, _) =>
      match k.load k.files directory place path args vars with
      | .ok task => .ok task
      | .error errno =>
        if errno = Errno.notExecutable && request.newSession then
          match k.files.find w.directory shell with
          | .error errno => .error errno
          | .ok (place, _) =>
            k.load k.files directory place shell (shell :: path :: args.drop 1) vars
        else .error errno

/-- Connects a standard stream of a program.  Gives the open file for the program and that for the
supervisor. -/
def connect (k : Kernel) (connection : Connection) (output : Bool) (inherited : Opened) :
    Kernel × Nat × Option Nat :=
  match connection with
  | .pipe =>
    let (k, reading, writing) := k.addPipe
    let (ours, theirs) := if output then (reading, writing) else (writing, reading)
    ({ k with held := ours :: k.held }, theirs, some ours)
  | .inherit =>
    let (k, number) := k.addOpened inherited
    (k, number, none)
  | .null =>
    let (k, number) := k.addOpened .null
    (k, number, none)

/-- Starts a program. -/
def startProgram (request : LaunchRequest) (w : World) : Except SystemError Launched × World :=
  let k := w.kernel.settle
  let directory : Except Errno Place :=
    match request.directory with
    | none => .ok w.directory
    | some path =>
      match k.files.find w.directory (ofText path) with
      | .ok (place, .directory) => .ok place
      | .ok _ => .error Errno.notDirectory
      | .error errno => .error errno
  match directory with
  | .error errno => (.error (.os errno), (w.withKernel k).spend 500)
  | .ok directory =>
    match w.loadProgram k directory request with
    | .error errno => (.error (.os errno), (w.withKernel k).spend 500)
    | .ok task =>
      let (k, stdin, ourStdin) := connect k request.stdin false .null
      let (k, stdout, ourStdout) := connect k request.stdout true .kept
      let (k, stderr, ourStderr) := connect k request.stderr true .dropped
      let pid := k.nextPid
      let k := { k with now := k.now + 700, nextPid := pid + 1 }
      let p : Process := {
        pid
        parent := supervisorPid
        group := if request.newSession then pid else supervisorPid
        task
        turn := k.now + 500
        directory
        handles := [⟨0, stdin, false⟩, ⟨1, stdout, false⟩, ⟨2, stderr, false⟩] }
      let k := { k with processes := k.processes ++ [p] }
      (.ok ⟨UInt32.ofNat pid, ourStdin, ourStdout, ourStderr⟩, w.withKernel k)

/-! ## Files and clocks -/

/-- What the supervisor sees of the files. -/
def look (w : World) : FileView :=
  let files := w.kernel.settle.files
  { candidate := fun path =>
      match files.find w.directory (ofText path) with
      | .ok (_, node) => if node.isExecutable then .executable else .notExecutable
      | .error _ => .missing
    isDirectory := fun path =>
      match files.find w.directory (ofText path) with
      | .ok (_, .directory) => true
      | _ => false
    currentDirectory := .ok (Text.Utf8.lossy (toBytes (Files.path w.directory)))
    vars := w.vars }

/-- The bytes of a file. -/
def fileBytes (path : String) (w : World) : Except SystemError (List UInt8) × World :=
  let k := w.kernel.settle
  let w := (w.withKernel k).spend 10
  if path.contains '\x00' then
    (.error (.refused "file name contained an unexpected NUL byte"), w)
  else
    match k.files.find w.directory (ofText path) with
    | .error errno => (.error (.os errno), w)
    | .ok (_, .directory) => (.error (.os Errno.isDirectory), w)
    | .ok (_, .file _ content) => (.ok content, w)
    | .ok _ => (.ok [], w)

/-- The time of day at which the machine starts, in milliseconds since 1970. -/
def startOfTime : Nat := 1700000000000

theorem readPipe_ne_interrupted {d : Descriptor} {n : Nat} {w w' : World} :
    readPipe d n w ≠ (.interrupted, w') := by
  simp only [readPipe]
  intro h
  split at h
  · split at h
    · split at h <;> simp at h
    · simp at h
  · simp at h

theorem writePipe_ne_interrupted {d : Descriptor} {bytes : List UInt8} {w w' : World} :
    writePipe d bytes w ≠ (.interrupted, w') := by
  simp only [writePipe]
  intro h
  split at h
  · split at h
    · simp at h
    · split at h <;> simp at h
  · simp at h

theorem length_readPipe {d : Descriptor} {n : Nat} {w w' : World} {chunk : List UInt8}
    (h : readPipe d n w = (.bytes chunk, w')) : chunk.length ≤ n := by
  simp only [readPipe] at h
  split at h
  · split at h
    · split at h
      · simp at h
      · simp only [Prod.mk.injEq, ReadResult.bytes.injEq] at h
        simp [← h.1]
    · simp only [Prod.mk.injEq, ReadResult.bytes.injEq] at h
      rw [← h.1]
      exact Pipe.length_takeFrom_le _ _
  · simp at h

theorem count_writePipe {d : Descriptor} {bytes : List UInt8} {w w' : World} {count : Nat}
    (h : writePipe d bytes w = (.wrote count, w')) : count ≤ bytes.length := by
  simp only [writePipe] at h
  split at h
  · split at h
    · simp at h
    · split at h
      · simp at h
      · simp only [Prod.mk.injEq, WriteResult.wrote.injEq] at h
        rw [← h.1]
        exact Pipe.write_le _ _
  · simp at h

/-- The pipe of a stream gets a number that was free. -/
theorem connect_spec (k : Kernel) (connection : Connection) (output : Bool) (inherited : Opened) :
    k.nextNumber ≤ (connect k connection output inherited).1.nextNumber ∧
      ∀ d, (connect k connection output inherited).2.2 = some d →
        k.nextNumber ≤ d ∧ d < (connect k connection output inherited).1.nextNumber := by
  cases connection <;> cases output <;>
    simp [connect, Kernel.addPipe, Kernel.addOpened] <;> omega

theorem nodup_startProgram {request : LaunchRequest} {w w' : World} {launched : Launched}
    (h : startProgram request w = (.ok launched, w')) : launched.pipes.Nodup := by
  simp only [startProgram] at h
  split at h
  · simp at h
  split at h
  · simp at h
  simp only [Prod.mk.injEq, Except.ok.injEq] at h
  obtain ⟨rfl, -⟩ := h
  have hi := connect_spec w.kernel.settle request.stdin false .null
  generalize connect w.kernel.settle request.stdin false .null = first at hi ⊢
  have ho := connect_spec first.1 request.stdout true .kept
  generalize connect first.1 request.stdout true .kept = second at ho ⊢
  have he := connect_spec second.1 request.stderr true .dropped
  generalize connect second.1 request.stderr true .dropped = third at he ⊢
  obtain ⟨_, _, stdin⟩ := first
  obtain ⟨_, _, stdout⟩ := second
  obtain ⟨_, _, stderr⟩ := third
  cases stdin <;> cases stdout <;> cases stderr <;>
    simp_all [Launched.pipes, Descriptor] <;> omega

/-- The machine as a host. -/
def host : Host World where
  read := readPipe
  write := writePipe
  close := closePipe
  reap := reapChild
  await := awaitChild
  kill := killTarget
  watch := watchPipes
  sleep microseconds w := w.withKernel (w.kernel.settle.pass microseconds)
  now w := (w.kernel.now, w.spend 1)
  start := startProgram
  view := look
  readFile := fileBytes
  wallClock w := startOfTime + w.kernel.now / 1000
  patience _ := 0
  patience_read h := absurd h readPipe_ne_interrupted
  patience_write h := absurd h writePipe_ne_interrupted
  length_read := length_readPipe
  count_write := count_writePipe
  nodup_start := nodup_startProgram

end World

end Chaperone.Machine
