import Chaperone.Machine.Bytes
import Chaperone.Machine.Task

/-!
# Parts of programs

What the programs of the machine have in common: reading to the end, writing through a buffer, and
complaining.
-/

namespace Chaperone.Machine.Routine

/-- How many rounds a loop of a program makes at most. -/
def rounds : Nat := 10000000

/-- Writes to an open file. -/
def write (fd : Nat) (bytes : List UInt8) : Routine (Except Errno Nat) := ask (.write fd bytes)

/-- Writes a byte string. -/
def say (fd : Nat) (s : String) : Routine Unit := do
  if s.isEmpty then return
  let _ ← write fd (toBytes s)

/-- What a failure is called in a complaint. -/
def reason (errno : Errno) : String := errno.text

/-- Reads to the end.  Gives the bytes in pieces, last piece first, or why reading failed. -/
def readPieces (fd count : Nat) : Nat → List (List UInt8) →
    Routine (Except Errno (List (List UInt8)))
  | 0, done => return .ok done
  | fuel + 1, done => do
    match ← ask (.read fd count) with
    | .error errno => return .error errno
    | .ok [] => return .ok done
    | .ok piece => readPieces fd count fuel (piece :: done)

/-- Reads to the end. -/
def readAll (fd : Nat) : Routine (Except Errno (List UInt8)) := do
  match ← readPieces fd 65536 rounds [] with
  | .error errno => return .error errno
  | .ok pieces => return .ok pieces.reverse.flatten

/-- How many bytes a buffer of output holds. -/
def bufferSize : Nat := 4096

/-- Adds bytes to a buffer of standard output and writes what fills it.  Gives what is left. -/
def buffer (held bytes : List UInt8) : Routine (List UInt8) := do
  let all := held ++ bytes
  let whole := all.length / bufferSize * bufferSize
  if whole = 0 then return all
  let _ ← write 1 (all.take whole)
  return all.drop whole

/-- Writes what is left in a buffer. -/
def flush (held : List UInt8) : Routine Unit := do
  if held.isEmpty then return
  let _ ← write 1 held

end Chaperone.Machine.Routine
