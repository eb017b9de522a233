/-!
# Lines of a text, whole or in pieces

A line ends with a newline, and one carriage return before that newline belongs to the end of the
line.  What follows the last newline is a line too unless it is empty; its carriage return stays.

A `LineBuffer` takes a text in pieces and hands it on in pieces that end with a newline, so that
the lines of what it hands on are lines of the whole text.
-/

namespace Chaperone.Text

/-- The line whose characters before the newline are `read`, last character first. -/
def closeLine : List Char → String
  | '\r' :: read => String.ofList read.reverse
  | read => String.ofList read.reverse

/-- One character of the division into lines: what is read of the line at hand and the lines
before it, both last first. -/
def splitStep : List Char × List String → Char → List Char × List String
  | (read, done), '\n' => ([], closeLine read :: done)
  | (read, done), c => (c :: read, done)

/-- The lines of a text in order. -/
def lines (text : String) : List String :=
  let (read, done) := text.toList.foldl splitStep ([], [])
  (if read.isEmpty then done else String.ofList read.reverse :: done).reverse

/-- A text that waits for the end of its last line. -/
structure LineBuffer where
  pending : String := ""
  deriving DecidableEq, Repr, Inhabited

/-- Appends a piece and gives back everything up to the last newline, if there is one. -/
def LineBuffer.push (buffer : LineBuffer) (piece : String) : LineBuffer × Option String :=
  let held := (buffer.pending ++ piece).toList.reverse
  let unfinished := held.takeWhile (· ≠ '\n')
  let finished := held.dropWhile (· ≠ '\n')
  (⟨String.ofList unfinished.reverse⟩,
    if finished.isEmpty then none else some (String.ofList finished.reverse))

/-- Gives back what is left without a newline, if anything is. -/
def LineBuffer.take (buffer : LineBuffer) : LineBuffer × Option String :=
  if buffer.pending.isEmpty then (buffer, none) else ({}, some buffer.pending)

end Chaperone.Text
