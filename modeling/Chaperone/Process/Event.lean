import Chaperone.Process.Status

/-!
# Events of a supervised program

An event says what happened to one program and when.  Written as JSON it takes one line.
-/

namespace Chaperone

/-- One of the two output streams. -/
inductive OutputStream where
  | stdout
  | stderr
  deriving DecidableEq, Repr, Inhabited

namespace OutputStream

/-- The label of a stream. -/
def label : OutputStream → String
  | .stdout => "stdout"
  | .stderr => "stderr"

/-- The names of the streams. -/
def known : List (String × OutputStream) := [("stdout", .stdout), ("stderr", .stderr)]

/-- A stream from its document form. -/
def decode : Decode OutputStream := Decode.choice known

end OutputStream

/-- What happened to a program. -/
inductive Happening where
  /-- It was launched. -/
  | started (pid : Pid) (command : String) (args : List String)
  /-- It could not be launched. -/
  | spawnFailed (error : String)
  /-- It wrote something. -/
  | output (pid : Pid) (stream : OutputStream) (content : String)
  /-- It ended. -/
  | exited (pid : Pid) (status : ExitStatus)
  deriving DecidableEq, Repr, Inhabited

/-- What happened to the program `name`, and when. -/
structure Event where
  name : String
  happening : Happening
  /-- The time in the form of RFC 3339. -/
  timestamp : String
  deriving DecidableEq, Repr, Inhabited

namespace Event

/-- A process number in a document. -/
def pidDatum (pid : Pid) : Datum := .int pid.toNat

/-- The document form of an event. -/
def toDatum (event : Event) : Datum :=
  let (kind, members) : String × List (String × Datum) :=
    match event.happening with
    | .started pid command args =>
      ("started", [("pid", pidDatum pid), ("command", .string command),
        ("args", .array (args.map .string))])
    | .spawnFailed error => ("spawnFailed", [("error", .string error)])
    | .output pid stream content =>
      ("output", [("pid", pidDatum pid), ("stream", .string stream.label),
        ("content", .string content)])
    | .exited pid status => ("exited", [("pid", pidDatum pid), ("status", status.toDatum)])
  .object <|
    [("eventType", .string kind), ("name", .string event.name)] ++ members ++
      [("timestamp", .string event.timestamp)]

/-- The kinds of event. -/
inductive Kind where
  | started
  | spawnFailed
  | output
  | exited
  deriving DecidableEq, Repr

/-- The names of the kinds. -/
def kinds : List (String × Kind) :=
  [("started", .started), ("spawnFailed", .spawnFailed), ("output", .output), ("exited", .exited)]

/-- What messages call an event of a kind. -/
def Kind.record : Kind → String
  | .started => "struct variant ProcessEvent::Started"
  | .spawnFailed => "struct variant ProcessEvent::SpawnFailed"
  | .output => "struct variant ProcessEvent::Output"
  | .exited => "struct variant ProcessEvent::Exited"

/-- The fields of an event of a kind, apart from the kind. -/
def Kind.rules (kind : Kind) : List FieldRule :=
  let middle : List FieldRule :=
    match kind with
    | .started =>
      [.needed "pid" Decode.nat32, .needed "command" Decode.text,
        .needed "args" (Decode.list Decode.text)]
    | .spawnFailed => [.needed "error" Decode.text]
    | .output =>
      [.needed "pid" Decode.nat32, .needed "stream" OutputStream.decode,
        .needed "content" Decode.text]
    | .exited => [.needed "pid" Decode.nat32, .needed "status" ExitStatus.decode]
  [.needed "name" Decode.text] ++ middle ++ [.needed "timestamp" Decode.text]

/-- A process number from its document form. -/
def decodePid (fields : Fields) : Decoded Pid :=
  (fields.get .buffered "pid" Decode.nat32).map UInt32.ofNat

/-- What an event of a kind reports. -/
def Kind.happening (fields : Fields) : Kind → Decoded Happening
  | .started => do
    return .started (← decodePid fields) (← fields.get .buffered "command" Decode.text)
      (← fields.get .buffered "args" (Decode.list Decode.text))
  | .spawnFailed => do return .spawnFailed (← fields.get .buffered "error" Decode.text)
  | .output => do
    return .output (← decodePid fields) (← fields.get .buffered "stream" OutputStream.decode)
      (← fields.get .buffered "content" Decode.text)
  | .exited => do
    return .exited (← decodePid fields) (← fields.get .buffered "status" ExitStatus.decode)

/-- An event of a kind from its other members. -/
def decodeContent (kind : Kind) (d : Datum) : Decoded Event := do
  let fields ← Fields.read kind.record kind.rules .buffered d
  return {
    name := ← fields.get .buffered "name" Decode.text
    happening := ← kind.happening fields
    timestamp := ← fields.get .buffered "timestamp" Decode.text }

/-- An event from its document form. -/
def decode : Decode Event := Decode.tagged "ProcessEvent" "eventType" kinds decodeContent

end Event

end Chaperone
