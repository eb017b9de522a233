import Chaperone.Child.Basic

/-!
# Writing to a child

Input is queued and written as far as the pipe takes it.  What is left waits for the next flush.
-/

namespace Chaperone.Child

variable {ω : Type}

/-- Closes standard input at once and forgets what waits for it. -/
def closeStdin (host : Host ω) (child : Child) (w : ω) : Child × ω :=
  ({ child with stdin := none, pendingInput := [], closeWhenFlushed := false },
    match child.stdin with
    | some d => host.close d w
    | none => w)

/-- Closes standard input and reports why. -/
def failStdin (host : Host ω) (child : Child) (cause : WriteError) (w : ω) :
    Except WriteError Unit × Child × ω :=
  let (child, w) := child.closeStdin host w
  (.error cause, child, w)

/-- Writes queued input until the pipe takes no more. -/
def flushStdin (host : Host ω) (child : Child) (w : ω) : Except WriteError Unit × Child × ω :=
  match _hp : child.pendingInput with
  | [] =>
    if child.closeWhenFlushed then
      let (child, w) := child.closeStdin host w
      (.ok (), child, w)
    else (.ok (), child, w)
  | b :: rest =>
    match child.stdin with
    | none => (.error (.closed child.pid), { child with pendingInput := [] }, w)
    | some d =>
      match _hw : host.write d (b :: rest) w with
      | (.wrote 0, w) => failStdin host child (.closed child.pid) w
      | (.wrote (count + 1), w) =>
        flushStdin host { child with pendingInput := rest.drop count } w
      | (.wouldBlock, w) => (.ok (), child, w)
      | (.interrupted, w') => flushStdin host child w'
      | (.brokenPipe, w) => failStdin host child (.closed child.pid) w
      | (.failed cause, w) => failStdin host child (.osFailure child.pid cause) w
termination_by (child.pendingInput.length, host.patience w)
decreasing_by
  · rw [_hp]
    refine Prod.Lex.left _ _ ?_
    simp only [List.length_drop, List.length_cons]
    omega
  · exact Prod.Lex.right _ (host.patience_write _hw)

/-- Queues data for standard input and writes as much of it as the pipe takes.  With `close`,
standard input is closed when everything is written. -/
def write (host : Host ω) (data : List UInt8) (close : Bool) (child : Child) (w : ω) :
    Except WriteError Unit × Child × ω :=
  if child.exited || !child.stdinOpen then (.error (.closed child.pid), child, w)
  else
    flushStdin host
      { child with
        pendingInput := child.pendingInput ++ data
        closeWhenFlushed := child.closeWhenFlushed || close } w

end Chaperone.Child
