import Chaperone.Machine.Files

/-!
# What processes do

A `Task` is what a process is going to do: it ends with a code, or asks the machine for something
and goes on with the reply, or divides in two.  Programs are written as a `Routine`, which gives a
value to what is done after it.
-/

namespace Chaperone.Machine

/-- The variables of a process. -/
abbrev Variables := List (String × String)

/-- How a file is opened. -/
inductive OpenMode where
  | read
  /-- For writing, from the beginning of an empty file, which is made if need be. -/
  | write
  /-- For writing at the end. -/
  | append
  | readWrite
  deriving DecidableEq, Repr, Inhabited

/-- What a process does about a signal. -/
inductive Handling where
  | default
  | ignore
  /-- The process is told, and a call that waits is interrupted. -/
  | catch
  deriving DecidableEq, Repr, Inhabited

/-! ## Signals -/

namespace SignalNumber

def hangup : Nat := 1
def interrupt : Nat := 2
def quit : Nat := 3
def kill : Nat := 9
def pipe : Nat := 13
def terminate : Nat := 15
def child : Nat := 17
def resume : Nat := 18
def stop : Nat := 19

/-- The signals that stop a process which does nothing about them. -/
def stopping : List Nat := [19, 20, 21, 22]

/-- The signals that do nothing to a process which does nothing about them. -/
def harmless : List Nat := [17, 18, 23, 28]

end SignalNumber

/-- No such open file. -/
def badFile : Errno := 9

/-- The pipe holds more than its new size. -/
def busy : Errno := 16

/-- Nobody reads from the pipe. -/
def brokenPipe : Errno := 32

/-! ## Requests -/

/-- Which children a process waits for. -/
inductive Awaited where
  | any
  | child (pid : Nat)
  deriving DecidableEq, Repr, Inhabited

/-- What a process asks the machine for. -/
inductive Syscall where
  | read (fd count : Nat)
  | write (fd : Nat) (bytes : List UInt8)
  | openFile (path : String) (mode : OpenMode)
  | close (fd : Nat)
  /-- Makes `target` another name of what `fd` names. -/
  | duplicate (fd target : Nat)
  /-- Gives what `fd` names a name of 10 or more, which a new program does not inherit. -/
  | setAside (fd : Nat)
  | pipe
  /-- Sets how many bytes the pipe behind `fd` holds. -/
  | resizePipe (fd size : Nat)
  | sleep (microseconds : Nat)
  | wait (whom : Awaited)
  /-- Sends a signal to a process, or to a whole group if the number is negative. -/
  | kill (target : Int) (signal : Nat)
  | handle (signal : Nat) (handling : Handling)
  /-- Asks which caught signals have arrived. -/
  | takeCaught
  | changeDirectory (path : String)
  | currentDirectory
  | look (path : String)
  /-- The same, without following a link at the end. -/
  | lookLink (path : String)
  | list (path : String)
  | makeDirectory (path : String)
  | makeLink (target path : String)
  | setMode (path : String) (mode : Nat)
  | rename (path newPath : String)
  | unlink (path : String)
  | removeDirectory (path : String)
  | pid
  | parent
  /-- Becomes another program.  There is a reply only if that fails. -/
  | execute (path : String) (args : List String) (vars : Variables)
  /-- Computes for some time. -/
  | compute (microseconds : Nat)
  deriving Repr, Inhabited

/-- What the machine replies. -/
@[reducible]
def Syscall.Reply : Syscall → Type
  | .read _ _ => Except Errno (List UInt8)
  | .write _ _ => Except Errno Nat
  | .openFile _ _ => Except Errno Nat
  | .close _ => Except Errno Unit
  | .duplicate _ _ => Except Errno Unit
  | .setAside _ => Except Errno Nat
  | .pipe => Nat × Nat
  | .resizePipe _ _ => Except Errno Nat
  | .sleep _ => Except Errno Unit
  | .wait _ => Except Errno (Nat × Nat)
  | .kill _ _ => Except Errno Unit
  | .handle _ _ => Handling
  | .takeCaught => List Nat
  | .changeDirectory _ => Except Errno Unit
  | .currentDirectory => String
  | .look _ => Except Errno Node
  | .lookLink _ => Except Errno Node
  | .list _ => Except Errno (List String)
  | .makeDirectory _ => Except Errno Unit
  | .makeLink _ _ => Except Errno Unit
  | .setMode _ _ => Except Errno Unit
  | .rename _ _ => Except Errno Unit
  | .unlink _ => Except Errno Unit
  | .removeDirectory _ => Except Errno Unit
  | .pid => Nat
  | .parent => Nat
  | .execute _ _ _ => Errno
  | .compute _ => Unit

/-- What a process is going to do. -/
inductive Task where
  | exit (code : Nat)
  | call (request : Syscall) (next : request.Reply → Task)
  /-- A child does the one thing, and the process goes on with the child's number. -/
  | fork (child : Task) (next : Nat → Task)

instance : Inhabited Task := ⟨.exit 0⟩

/-- A part of a program, which gives a value to the part after it. -/
def Routine (α : Type) : Type := (α → Task) → Task

namespace Routine

instance : Monad Routine where
  pure a := fun next => next a
  bind m f := fun next => m fun a => f a next

/-- The task of a whole program. -/
def toTask (routine : Routine Unit) : Task := routine fun () => .exit 0

/-- Ends the process. -/
def exit {α : Type} (code : Nat) : Routine α := fun _ => .exit code

/-- Asks the machine for something. -/
def ask (request : Syscall) : Routine request.Reply := fun next => .call request next

/-- Starts a child. -/
def fork (child : Routine Unit) : Routine Nat := fun next => .fork child.toTask next

end Routine

end Chaperone.Machine
