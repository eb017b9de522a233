import Chaperone.Json.Printer
import Chaperone.Process.Event
import Chaperone.Text.Lines

/-!
# Reporting events

Events are reported as lines: in text form, lines that begin with the name of the program in
brackets; in JSON form, one event per line.  Lines go to a `Sink`, which may refuse them; a refused
line ends the report of its event and nothing else.
-/

namespace Chaperone

/-- How events are reported. -/
inductive Format where
  | text
  | json
  deriving DecidableEq, Repr, Inhabited

/-- What stands in front of a line of output. -/
def outputTag (name : String) : OutputStream → String
  | .stdout => "[" ++ name ++ "]"
  | .stderr => "[" ++ name ++ ":err]"

/-- The lines of an event in text form. -/
def Event.textLines (event : Event) : List String :=
  match event.happening with
  | .started pid _ _ => ["[" ++ event.name ++ "] started (pid " ++ toString pid.toNat ++ ")"]
  | .spawnFailed error => ["[" ++ event.name ++ "] failed to start: " ++ error]
  | .output _ stream content =>
    (Text.lines content).map fun line => outputTag event.name stream ++ " " ++ line
  | .exited _ status => ["[" ++ event.name ++ "] exited with " ++ status.display]

/-- The lines of an event. -/
def Event.lines (format : Format) (event : Event) : List String :=
  match format with
  | .text => event.textLines
  | .json => [Json.render event.toDatum]

/-- Where lines go.  Both calls say whether they were done. -/
structure Sink (κ : Type) where
  write : String → κ → Bool × κ
  flush : κ → Bool × κ

namespace Sink

variable {κ : Type}

/-- Writes lines up to the first that is refused.  Says whether none was. -/
def writeLines (sink : Sink κ) : List String → κ → Bool × κ
  | [], k => (true, k)
  | line :: rest, k =>
    match sink.write (line ++ "\n") k with
    | (true, k) => sink.writeLines rest k
    | (false, k) => (false, k)

/-- Reports an event. -/
def report (sink : Sink κ) (format : Format) (event : Event) (k : κ) : κ :=
  match sink.writeLines (event.lines format) k with
  | (true, k) => (sink.flush k).2
  | (false, k) => k

/-- Keeps what is written. -/
def keeping : Sink String where
  write text k := (true, k ++ text)
  flush k := (true, k)

/-- Refuses everything. -/
def refusing : Sink String where
  write _ k := (false, k)
  flush k := (false, k)

end Sink

end Chaperone
