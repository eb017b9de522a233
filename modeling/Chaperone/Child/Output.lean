import Chaperone.Child.Basic

/-!
# Reading from a child

One call takes what is there, up to a bound, so that a child that never stops writing cannot hold
its supervisor.
-/

namespace Chaperone

/-- How many bytes a single read asks for. -/
def readChunk : Nat := 8192

/-- How many bytes end a call: no read follows once so many have been taken. -/
def maxPerCall : Nat := 256 * 1024

/-- Why no more was read. -/
inductive Pause where
  /-- Nothing is there now, or enough was taken. -/
  | later
  /-- The stream is at its end. -/
  | ended
  | failed (cause : SystemError)
  deriving DecidableEq, Repr, Inhabited

/-- Reads from a pipe until nothing is there, the stream ends or enough was taken.  Gives all that
was read after `taken`, of which `count` bytes were read by this call. -/
def drain {ω : Type} (host : Host ω) (d : Descriptor) (taken : List UInt8) (count : Nat) (w : ω) :
    Pause × List UInt8 × ω :=
  match _hr : host.read d readChunk w with
  | (.bytes [], w) => (.ended, taken, w)
  | (.bytes (b :: chunk), w) =>
    let count' := count + (chunk.length + 1)
    if maxPerCall ≤ count' then (.later, taken ++ b :: chunk, w)
    else drain host d (taken ++ b :: chunk) count' w
  | (.wouldBlock, w) => (.later, taken, w)
  | (.interrupted, w') => drain host d taken count w'
  | (.failed cause, w) => (.failed cause, taken, w)
termination_by (maxPerCall - count, host.patience w)
decreasing_by
  · refine Prod.Lex.left _ _ ?_
    rename_i h
    simp only [Nat.not_le] at h
    omega
  · exact Prod.Lex.right _ (host.patience_read _hr)

/-- Whether a stream can still give data. -/
inductive StreamState where
  | opened
  | closed
  deriving DecidableEq, Repr, Inhabited

namespace Child

variable {ω : Type}

/-- Takes what an output stream has: its residue, then what can be read.  At the end of the stream
and after a failure its pipe is released; what was read before a failure is given all the same. -/
def readStream (host : Host ω) (stream : OutputStream) (child : Child) (w : ω) :
    Except SystemError StreamState × List UInt8 × Child × ω :=
  let kept := child.residue stream
  let child := child.withResidue [] stream
  match child.pipe stream with
  | none => (.ok .closed, kept, child, w)
  | some d =>
    match drain host d kept 0 w with
    | (.later, bytes, w) => (.ok .opened, bytes, child, w)
    | (.ended, bytes, w) => (.ok .closed, bytes, child.withoutPipe stream, host.close d w)
    | (.failed cause, bytes, w) => (.error cause, bytes, child.withoutPipe stream, host.close d w)

/-- Keeps what is left in the pipe of an output stream as its residue. -/
def keepRest (host : Host ω) (stream : OutputStream) (child : Child) (w : ω) : Child × ω :=
  match child.pipe stream with
  | none => (child, w)
  | some d =>
    let (_, bytes, w) := drain host d (child.residue stream) 0 w
    (child.withResidue bytes stream, w)

/-- Releases the pipe of an output stream. -/
def releasePipe (host : Host ω) (stream : OutputStream) (child : Child) (w : ω) : Child × ω :=
  match child.pipe stream with
  | none => (child, w)
  | some d => (child.withoutPipe stream, host.close d w)

end Child

end Chaperone
