import Chaperone.Machine.Pipe
import Chaperone.Machine.Task

/-!
# The machine

Processes take turns by the clock: the one whose turn comes first makes its next request at that
time, and each request costs some time.  A request that cannot be met yet waits until something has
changed.  The supervisor is not among the processes; it acts from outside, between their turns, and
sees the machine as it is at that time.
-/

namespace Chaperone.Machine

/-- What an open file is. -/
inductive Opened where
  | readEnd (pipe : Nat)
  | writeEnd (pipe : Nat)
  | file (place : Place) (offset : Nat) (mode : OpenMode)
  | null
  | zero
  /-- The supervisor's own standard output, which is kept. -/
  | kept
  /-- The supervisor's own standard error, which is not. -/
  | dropped
  deriving DecidableEq, Repr, Inhabited

/-- A name of an open file in a process. -/
structure Handle where
  fd : Nat
  /-- The number of the open file. -/
  file : Nat
  closeOnExecute : Bool := false
  deriving DecidableEq, Repr, Inhabited

/-- A process. -/
structure Process where
  pid : Nat
  parent : Nat
  group : Nat
  task : Task
  /-- When its turn comes. -/
  turn : Nat
  /-- Whether its request waits for a change. -/
  waiting : Bool := false
  /-- When its sleep is over, if it sleeps. -/
  sleepUntil : Option Nat := none
  /-- Whether a caught signal has arrived during a request that waits. -/
  interrupted : Bool := false
  stopped : Bool := false
  handles : List Handle := []
  directory : Place := []
  handling : List (Nat × Handling) := []
  caught : List Nat := []
  /-- Signals that arrived while it was stopped. -/
  pending : List Nat := []
  /-- The status word, once it has ended. -/
  ended : Option Nat := none
  deriving Inhabited

/-- What is loaded when a process in a directory executes the file at a place: the task of the
program, or why there is none. -/
abbrev Loader := Files → (directory file : Place) → String → List String → Variables →
  Except Errno Task

/-- The machine. -/
structure Kernel where
  /-- Microseconds since its start. -/
  now : Nat := 0
  processes : List Process := []
  /-- Open files by their numbers. -/
  opened : List (Nat × Opened) := []
  pipes : List (Nat × Pipe) := []
  files : Files := {}
  nextPid : Nat := 1000
  nextNumber : Nat := 1
  /-- The open files that the supervisor holds. -/
  held : List Nat := []
  /-- What was written to the supervisor's standard output, newest piece first. -/
  output : List (List UInt8) := []
  load : Loader := fun _ _ _ _ _ _ => .error Errno.notExecutable
  deriving Inhabited

namespace Process

/-- Whether it has not ended. -/
def alive (p : Process) : Bool := p.ended.isNone

/-- Whether it can take its turn. -/
def runnable (p : Process) : Bool := p.alive && !p.stopped && !p.waiting

/-- What it does about a signal. -/
def handles? (p : Process) (signal : Nat) : Handling := (p.handling.lookup signal).getD .default

/-- The open file that a name stands for. -/
def file? (p : Process) (fd : Nat) : Option Nat :=
  (p.handles.find? (·.fd = fd)).map (·.file)

/-- The least name from `least` on that stands for nothing. -/
def freeHandle (p : Process) (least : Nat) : Nat :=
  let used := p.handles.map (·.fd)
  ((List.range (used.length + 1)).map (· + least)).find? (fun fd => !used.contains fd) |>.getD least

/-- Gives a name to an open file. -/
def name (p : Process) (handle : Handle) : Process :=
  { p with handles := handle :: p.handles.filter (·.fd ≠ handle.fd) }

/-- The process with its turn at a time. -/
def wake (p : Process) (turn : Nat) : Process := { p with waiting := false, turn }

end Process

namespace Kernel

/-- The process with a number. -/
def process? (k : Kernel) (pid : Nat) : Option Process := k.processes.find? (·.pid = pid)

/-- Replaces a process. -/
def setProcess (k : Kernel) (p : Process) : Kernel :=
  { k with processes := k.processes.map fun q => if q.pid = p.pid then p else q }

/-- Forgets the open files that nobody holds, and the pipes that have no end. -/
def tidy (k : Kernel) : Kernel :=
  let used := k.held ++ k.processes.flatMap fun p => p.handles.map (·.file)
  let opened := k.opened.filter fun (number, _) => used.contains number
  let pipes := k.pipes.filter fun (number, _) => opened.any fun (_, o) =>
    o == .readEnd number || o == .writeEnd number
  { k with opened, pipes }

/-- Lets the requests that wait be tried again. -/
def stir (k : Kernel) : Kernel :=
  { k with processes := k.processes.map fun p =>
      if p.waiting then p.wake (max p.turn (k.now + 5)) else p }

/-- Whether something can still write to a pipe. -/
def hasWriter (k : Kernel) (pipe : Nat) : Bool := k.opened.any fun (_, o) => o == .writeEnd pipe

/-- Whether something can still read from a pipe. -/
def hasReader (k : Kernel) (pipe : Nat) : Bool := k.opened.any fun (_, o) => o == .readEnd pipe

/-- The pipe with a number. -/
def pipe (k : Kernel) (number : Nat) : Pipe := (k.pipes.lookup number).getD {}

/-- Replaces a pipe. -/
def setPipe (k : Kernel) (number : Nat) (pipe : Pipe) : Kernel :=
  { k with pipes := k.pipes.map fun (n, old) => if n = number then (n, pipe) else (n, old) }

/-- Replaces an open file. -/
def setOpened (k : Kernel) (number : Nat) (o : Opened) : Kernel :=
  { k with opened := k.opened.map fun (n, old) => if n = number then (n, o) else (n, old) }

/-- Opens something.  Gives its number. -/
def addOpened (k : Kernel) (o : Opened) : Kernel × Nat :=
  ({ k with opened := (k.nextNumber, o) :: k.opened, nextNumber := k.nextNumber + 1 },
    k.nextNumber)

/-- Makes a pipe.  Gives the numbers of its ends, the one for reading first. -/
def addPipe (k : Kernel) : Kernel × Nat × Nat :=
  let number := k.nextNumber
  let k := { k with pipes := (number, {}) :: k.pipes, nextNumber := number + 1 }
  let (k, reading) := k.addOpened (.readEnd number)
  let (k, writing) := k.addOpened (.writeEnd number)
  (k, reading, writing)

/-! ## Ends and signals -/

/-- Ends a process.  Its children pass to the first process of the machine, which takes the status
of those that have ended; so nobody need take the status of a process that had passed to it. -/
def finish (k : Kernel) (pid word : Nat) : Kernel :=
  let processes := k.processes.map fun p =>
    if p.pid = pid then { p with ended := some word, handles := [], task := .exit 0 }
    else if p.parent = pid then { p with parent := 1 }
    else p
  let processes := processes.filter fun p => p.alive || p.parent ≠ 1
  ({ k with processes }).tidy.stir

/-- Lets a signal arrive at a process that is not stopped. -/
def arrive (k : Kernel) (p : Process) (signal : Nat) : Kernel :=
  match p.handles? signal with
  | .ignore => k
  | .catch =>
    let p := { p with caught := p.caught ++ [signal] }
    let p := if p.waiting || p.sleepUntil.isSome then
        { p with interrupted := true, waiting := false, turn := k.now + 5 }
      else p
    k.setProcess p
  | .default =>
    if SignalNumber.harmless.contains signal then k
    else if SignalNumber.stopping.contains signal then k.setProcess { p with stopped := true }
    else k.finish p.pid signal

/-- Lets the signals arrive that came while a process was stopped. -/
def arriveAll (k : Kernel) (pid : Nat) : List Nat → Kernel
  | [] => k
  | signal :: rest =>
    match k.process? pid with
    | some p => if p.alive then arriveAll (k.arrive p signal) pid rest else k
    | none => k

/-- Sends a signal to a process. -/
def deliver (k : Kernel) (p : Process) (signal : Nat) : Kernel :=
  if !p.alive || signal = 0 then k
  else if signal = SignalNumber.kill then k.finish p.pid signal
  else if signal = SignalNumber.stop then k.setProcess { p with stopped := true }
  else if signal = SignalNumber.resume then
    let awake := { p with stopped := false, pending := [], turn := max p.turn (k.now + 5) }
    let k := k.setProcess awake
    let k := if p.handles? signal = .catch then k.arrive awake signal else k
    k.arriveAll p.pid p.pending
  else if p.stopped then k.setProcess { p with pending := p.pending ++ [signal] }
  else k.arrive p signal

/-- The processes that a number stands for: one, or with a negative number a group. -/
def targets (k : Kernel) (target : Int) : List Nat :=
  (k.processes.filter fun p =>
    if 0 < target then p.pid = target.toNat else p.group = (-target).toNat).map (·.pid)

/-- Sends a signal to each of some processes. -/
def signalEach (k : Kernel) (signal : Nat) (pids : List Nat) : Kernel :=
  pids.foldl (fun k pid =>
    match k.process? pid with
    | some p => k.deliver p signal
    | none => k) k

/-- Sends a signal.  Processes that have ended but whose status was not taken still count. -/
def kill (k : Kernel) (target : Int) (signal : Nat) : Except Errno Unit × Kernel :=
  if 64 < signal then (.error Errno.invalid, k)
  else
    match k.targets target with
    | [] => (.error Errno.noProcess, k)
    | pids => (.ok (), (k.signalEach signal pids).stir)

/-! ## Requests -/

/-- The process goes on with a task after some time. -/
def resume (k : Kernel) (p : Process) (task : Task) (cost : Nat) : Kernel :=
  k.setProcess { p with
    task, turn := k.now + cost, waiting := false, sleepUntil := none, interrupted := false }

/-- The request waits. -/
def block (k : Kernel) (p : Process) : Kernel := k.setProcess { p with waiting := true }

/-- Bytes of a file from an offset on. -/
def slice (content : List UInt8) (offset count : Nat) : List UInt8 :=
  (content.drop offset).take count

/-- The content of a file after a write at an offset. -/
def splice (content : List UInt8) (offset : Nat) (bytes : List UInt8) : List UInt8 :=
  let before := content.take offset
  before ++ List.replicate (offset - before.length) 0 ++ bytes ++
    content.drop (offset + bytes.length)

/-- A process reads. -/
def read (k : Kernel) (p : Process) (fd count : Nat)
    (next : Except Errno (List UInt8) → Task) : Kernel :=
  match (p.file? fd).bind fun number => (k.opened.lookup number).map (number, ·) with
  | none => k.resume p (next (.error badFile)) 1
  | some (number, o) =>
    match o with
    | .readEnd id =>
      let pipe := k.pipe id
      if !pipe.isEmpty then
        let (pipe, bytes) := pipe.read count
        ((k.setPipe id pipe).resume p (next (.ok bytes)) 2).stir
      else if !k.hasWriter id then k.resume p (next (.ok [])) 1
      else if p.interrupted then k.resume p (next (.error Errno.interrupted)) 1
      else k.block p
    | .file place offset mode =>
      match k.files.at? place with
      | some (.file _ content) =>
        let bytes := slice content offset count
        let o := .file place (offset + bytes.length) mode
        (k.setOpened number o).resume p (next (.ok bytes)) 2
      | some .directory => k.resume p (next (.error Errno.isDirectory)) 1
      | _ => k.resume p (next (.ok [])) 1
    | .null => k.resume p (next (.ok [])) 1
    | .zero => k.resume p (next (.ok (List.replicate count 0))) 2
    | .writeEnd _ | .kept | .dropped => k.resume p (next (.error badFile)) 1

/-- A process writes to a pipe.  It waits until the pipe has taken everything. -/
def writePipe (k : Kernel) (p : Process) (fd id : Nat) (bytes : List UInt8)
    (next : Except Errno Nat → Task) : Kernel :=
  if !k.hasReader id then
    if p.handles? SignalNumber.pipe = .default then k.finish p.pid SignalNumber.pipe
    else k.resume p (next (.error brokenPipe)) 1
  else
    let (pipe, count) := (k.pipe id).write bytes
    if count = bytes.length then ((k.setPipe id pipe).resume p (next (.ok count)) 2).stir
    else if count = 0 then
      if p.interrupted then k.resume p (next (.error Errno.interrupted)) 1 else k.block p
    else
      let rest : Task := .call (.write fd (bytes.drop count)) fun reply =>
        next (.ok (count + match reply with
          | .ok more => more
          | .error _ => 0))
      let k := (k.setPipe id pipe).stir
      k.block { p with task := rest }

/-- A process writes. -/
def write (k : Kernel) (p : Process) (fd : Nat) (bytes : List UInt8)
    (next : Except Errno Nat → Task) : Kernel :=
  let all : Except Errno Nat := .ok bytes.length
  match (p.file? fd).bind fun number => (k.opened.lookup number).map (number, ·) with
  | none => k.resume p (next (.error badFile)) 1
  | some (number, o) =>
    match o with
    | .writeEnd id =>
      if bytes.isEmpty then k.resume p (next all) 1 else k.writePipe p fd id bytes next
    | .file place offset mode =>
      match mode, k.files.at? place with
      | .read, _ => k.resume p (next (.error badFile)) 1
      | _, some (.file permissions content) =>
        let offset := if mode = .append then content.length else offset
        let node := .file permissions (splice content offset bytes)
        let k := { k with files := k.files.put place node }
        (k.setOpened number (.file place (offset + bytes.length) mode)).resume p (next all) 2
      | _, _ => k.resume p (next all) 2
    | .null | .zero | .dropped => k.resume p (next all) 1
    | .kept => ({ k with output := bytes :: k.output }).resume p (next all) 2
    | .readEnd _ => k.resume p (next (.error badFile)) 1

/-- Opens a file. -/
def openFile (k : Kernel) (from_ : Place) (path : String) (mode : OpenMode) :
    Except Errno Opened × Kernel :=
  match k.files.locate true from_ path with
  | .error errno => (.error errno, k)
  | .ok place =>
    match mode, k.files.at? place with
    | _, some .null => (.ok .null, k)
    | _, some .zero => (.ok .zero, k)
    | .read, some _ => (.ok (.file place 0 .read), k)
    | .read, none => (.error Errno.noEntry, k)
    | _, some .directory => (.error Errno.isDirectory, k)
    | .write, some (.file permissions _) =>
      (.ok (.file place 0 .write), { k with files := k.files.put place (.file permissions []) })
    | mode, some _ => (.ok (.file place 0 mode), k)
    | mode, none =>
      match k.files.at? place.dropLast with
      | some .directory =>
        if path.endsWith "/" then (.error Errno.isDirectory, k)
        else (.ok (.file place 0 mode), { k with files := k.files.put place (.file 0o644 []) })
      | some _ => (.error Errno.notDirectory, k)
      | none => (.error Errno.noEntry, k)

/-- A process waits for a child. -/
def waitFor (k : Kernel) (p : Process) (whom : Awaited)
    (next : Except Errno (Nat × Nat) → Task) : Kernel :=
  let mine := k.processes.filter fun q =>
    q.parent = p.pid && match whom with
      | .any => true
      | .child pid => q.pid = pid
  match mine.findSome? fun q => q.ended.map (q.pid, ·) with
  | some (pid, word) =>
    ({ k with processes := k.processes.filter (·.pid ≠ pid) }).resume p (next (.ok (pid, word))) 3
  | none =>
    if mine.isEmpty then k.resume p (next (.error Errno.noChild)) 1
    else if p.interrupted then k.resume p (next (.error Errno.interrupted)) 1
    else k.block p

/-- A process becomes another program. -/
def execute (k : Kernel) (p : Process) (path : String) (args : List String)
    (vars : Variables) (next : Errno → Task) : Kernel :=
  match k.files.find p.directory path with
  | .error errno => k.resume p (next errno) 5
  | .ok (place, _) =>
    match k.load k.files p.directory place path args vars with
    | .error errno => k.resume p (next errno) 20
    | .ok task =>
      let p := { p with
        handles := p.handles.filter fun handle => !handle.closeOnExecute
        handling := p.handling.filter fun (_, handling) => handling = .ignore
        caught := [] }
      (k.resume p task 600).tidy.stir

/-- A process goes on after a change to the files, or without it. -/
def change (k : Kernel) (p : Process) (result : Except Errno Files)
    (next : Except Errno Unit → Task) : Kernel :=
  match result with
  | .ok files => { k with files }.resume p (next (.ok ())) 5
  | .error errno => k.resume p (next (.error errno)) 2

/-- A process makes a request. -/
def request (k : Kernel) (p : Process) (c : Syscall) (next : c.Reply → Task) : Kernel :=
  match c, next with
  | .read fd count, next => k.read p fd count next
  | .write fd bytes, next => k.write p fd bytes next
  | .openFile path mode, next =>
    match k.openFile p.directory path mode with
    | (.error errno, k) => k.resume p (next (.error errno)) 3
    | (.ok o, k) =>
      let (k, file) := k.addOpened o
      let fd := p.freeHandle 0
      k.resume (p.name { fd, file }) (next (.ok fd)) 4
  | .close fd, next =>
    match p.file? fd with
    | none => k.resume p (next (.error badFile)) 1
    | some _ =>
      let p := { p with handles := p.handles.filter (·.fd ≠ fd) }
      (k.resume p (next (.ok ())) 1).tidy.stir
  | .duplicate fd target, next =>
    match p.file? fd with
    | none => k.resume p (next (.error badFile)) 1
    | some file =>
      let p := if fd = target then p else p.name { fd := target, file }
      (k.resume p (next (.ok ())) 1).tidy.stir
  | .setAside fd, next =>
    match p.file? fd with
    | none => k.resume p (next (.error badFile)) 1
    | some file =>
      let aside := p.freeHandle 10
      k.resume (p.name { fd := aside, file, closeOnExecute := true }) (next (.ok aside)) 1
  | .pipe, next =>
    let (k, reading, writing) := k.addPipe
    let r := p.freeHandle 0
    let p := p.name { fd := r, file := reading }
    let w := p.freeHandle 0
    k.resume (p.name { fd := w, file := writing }) (next (r, w)) 5
  | .resizePipe fd size, next =>
    match (p.file? fd).bind fun number => k.opened.lookup number with
    | some (.readEnd id) | some (.writeEnd id) =>
      match (k.pipe id).resize size with
      | some pipe =>
        ((k.setPipe id pipe).resume p (next (.ok (pipe.capacity * pageSize))) 2).stir
      | none => k.resume p (next (.error busy)) 1
    | _ => k.resume p (next (.error badFile)) 1
  | .sleep microseconds, next =>
    match p.sleepUntil with
    | none =>
      let until_ := k.now + microseconds
      k.setProcess { p with sleepUntil := some until_, turn := until_ }
    | some until_ =>
      if until_ ≤ k.now then k.resume p (next (.ok ())) 1
      else if p.interrupted then k.resume p (next (.error Errno.interrupted)) 1
      else k.setProcess { p with turn := until_ }
  | .wait whom, next => k.waitFor p whom next
  | .kill target signal, next =>
    let target := if target = 0 then -(p.group : Int) else target
    let (result, k) := (k.resume p (next (.ok ())) 5).kill target signal
    match result with
    | .ok () => k
    | .error errno => k.resume p (next (.error errno)) 5
  | .handle signal handling, next =>
    let p' := { p with
      handling := (signal, handling) :: p.handling.filter fun entry => entry.1 ≠ signal }
    k.resume p' (next (p.handles? signal)) 1
  | .takeCaught, next => k.resume { p with caught := [] } (next p.caught) 0
  | .changeDirectory path, next =>
    match k.files.find p.directory path with
    | .ok (place, .directory) => k.resume { p with directory := place } (next (.ok ())) 2
    | .ok _ => k.resume p (next (.error Errno.notDirectory)) 2
    | .error errno => k.resume p (next (.error errno)) 2
  | .currentDirectory, next => k.resume p (next (Files.path p.directory)) 1
  | .look path, next => k.resume p (next ((k.files.find p.directory path).map (·.2))) 2
  | .lookLink path, next =>
    k.resume p (next ((k.files.locate false p.directory path).bind fun place =>
      match k.files.at? place with
      | some node => .ok node
      | none => .error Errno.noEntry)) 2
  | .list path, next =>
    match k.files.find p.directory path with
    | .ok (place, .directory) => k.resume p (next (.ok (k.files.names place))) 5
    | .ok _ => k.resume p (next (.error Errno.notDirectory)) 2
    | .error errno => k.resume p (next (.error errno)) 2
  | .makeDirectory path, next => k.change p (k.files.addNode p.directory path .directory) next
  | .makeLink target path, next => k.change p (k.files.addNode p.directory path (.link target)) next
  | .setMode path mode, next => k.change p (k.files.setMode p.directory path mode) next
  | .rename path newPath, next => k.change p (k.files.rename p.directory path newPath) next
  | .unlink path, next => k.change p (k.files.unlink p.directory path) next
  | .removeDirectory path, next => k.change p (k.files.removeDirectory p.directory path) next
  | .pid, next => k.resume p (next p.pid) 0
  | .parent, next => k.resume p (next p.parent) 0
  | .execute path args vars, next => k.execute p path args vars next
  | .compute microseconds, next => k.resume p (next ()) microseconds

/-- A process starts a child that holds the same open files. -/
def fork (k : Kernel) (p : Process) (child : Task) (next : Nat → Task) : Kernel :=
  let pid := k.nextPid
  let twin := { p with
    pid
    parent := p.pid
    task := child
    turn := k.now + 200
    waiting := false
    sleepUntil := none
    interrupted := false
    caught := []
    pending := [] }
  let k := { k with processes := k.processes ++ [twin], nextPid := pid + 1 }
  k.resume p (next pid) 150

/-- A process takes its turn. -/
def step (k : Kernel) (p : Process) : Kernel :=
  match p.task with
  | .exit code => k.finish p.pid ((code % 256) * 256)
  | .call c next => k.request p c next
  | .fork child next => k.fork p child next

/-! ## Time -/

/-- The process whose turn comes first. -/
def first? (k : Kernel) : Option Process :=
  k.processes.foldl (fun best p =>
    if !p.runnable then best
    else
      match best with
      | none => some p
      | some q => if p.turn < q.turn then some p else some q) none

/-- Lets processes take their turns up to a time, or until something is so.  Without a time limit
it ends when no turn is left. -/
def runUntil (stop : Kernel → Bool) (limit : Option Nat) : Nat → Kernel → Kernel
  | 0, k => k
  | fuel + 1, k =>
    if stop k then k
    else
      match k.first?, limit with
      | none, none => k
      | none, some limit => { k with now := max k.now limit }
      | some p, limit =>
        if limit.any (· < p.turn) then { k with now := max k.now (limit.getD k.now) }
        else runUntil stop limit fuel ({ k with now := max k.now p.turn }.step p)

/-- How many turns are taken at most before the supervisor sees the machine again. -/
def maxTurns : Nat := 100000000

/-- Lets everything happen that happens before the present time. -/
def settle (k : Kernel) : Kernel := k.runUntil (fun _ => false) (some k.now) maxTurns

/-- Lets time pass. -/
def pass (k : Kernel) (microseconds : Nat) : Kernel :=
  k.runUntil (fun _ => false) (some (k.now + microseconds)) maxTurns

end Kernel

end Chaperone.Machine
