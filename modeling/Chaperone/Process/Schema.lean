import Chaperone.Document.Datum

/-!
# Schemas of the document forms

Each type that is read from or written to a document has a JSON Schema (draft 7), in which every
part is described.  Members of a schema object stand in the order of their names.
-/

namespace Chaperone.Schema

open Chaperone

/-- An object with the members in the order of their names. -/
def ordered (members : List (String × Datum)) : Datum :=
  .object (members.mergeSort fun a b => a.1 ≤ b.1)

/-- A described part of a schema. -/
def described (description : String) (members : List (String × Datum)) : Datum :=
  ordered (("description", .string description) :: members)

/-- The member that names a type. -/
def typed (name : String) : String × Datum := ("type", .string name)

/-- A text. -/
def text (description : String) : Datum := described description [typed "string"]

/-- A text or null. -/
def optionalText (description : String) : Datum :=
  described description [("type", .array [.string "string", .string "null"])]

/-- A truth value with a default. -/
def flag (description : String) (default : Bool) : Datum :=
  described description [typed "boolean", ("default", .bool default)]

/-- A signed integer of 32 bits. -/
def int32 (description : String) : Datum :=
  described description [typed "integer", ("format", .string "int32")]

/-- A natural number of 32 bits. -/
def nat32 (description : String) : Datum :=
  described description
    [typed "integer", ("format", .string "uint32"), ("minimum", .float false (.finite 0 0))]

/-- The member that gives a sequence of texts. -/
def texts : List (String × Datum) := [typed "array", ("items", .object [typed "string"])]

/-- A map of texts, by default empty. -/
def textMap (description : String) : Datum :=
  described description
    [typed "object", ("additionalProperties", .object [typed "string"]), ("default", .object [])]

/-- A part that is defined under its own name. -/
def reference (description definition : String) (more : List (String × Datum) := []) : Datum :=
  described description <|
    ("allOf", .array [.object [("$ref", .string ("#/definitions/" ++ definition))]]) :: more

/-- The only text that a tag may be. -/
def only (name : String) : Datum := .object [("enum", .array [.string name]), typed "string"]

/-- A choice of names. -/
def names (description : String) (known : List (String × String)) : Datum :=
  described description
    [("oneOf", .array (known.map fun (name, meaning) =>
      described meaning [("enum", .array [.string name]), typed "string"]))]

/-- The members of the schema of an object.  The flag of a property says whether it must be
there. -/
def properties (parts : List (String × Bool × Datum)) : List (String × Datum) :=
  let required := (parts.filter (·.2.1)).map (·.1)
  [typed "object", ("properties", ordered (parts.map fun (name, _, part) => (name, part)))] ++
    if required.isEmpty then []
    else [("required", .array ((required.mergeSort fun a b => a ≤ b).map .string))]

/-- A choice of objects, told apart by the text of the member `tag`. -/
def choices (description tag : String)
    (known : List (String × String × List (String × Bool × Datum))) : Datum :=
  described description
    [("oneOf", .array (known.map fun (name, meaning, parts) =>
      described meaning (properties ((tag, true, only name) :: parts))))]

/-- A whole schema, with the definitions that it refers to. -/
def document (title : String) (schema : Datum) (definitions : List (String × Datum) := []) :
    Datum :=
  let members := match schema with
    | .object members => members
    | _ => []
  ordered <|
    [("$schema", .string "http://json-schema.org/draft-07/schema#"), ("title", .string title)] ++
      (if definitions.isEmpty then [] else [("definitions", .object definitions)]) ++ members

/-! ## The types -/

def connection : Datum :=
  names "How a standard stream of the child is connected"
    [ ("pipe", "Connect the stream to a pipe owned by the supervisor"),
      ("inherit", "Share the parent's stream"),
      ("null", "Connect the stream to the null device") ]

def environmentBase : Datum :=
  names "Whether the child starts from the parent's environment or an empty one"
    [ ("inherit", "Start from the parent's environment and apply overrides on top"),
      ("clear", "Start from an empty environment containing only the overrides") ]

def outputStream : Datum :=
  names "Standard stream identifier"
    [("stdout", "Standard output"), ("stderr", "Standard error")]

def exitStatus : Datum :=
  choices "How a child process terminated" "kind"
    [ ("exited", "The process exited normally with the given code",
        [("code", true, int32 "Exit code passed to \x60exit()\x60")]),
      ("signaled", "The process was terminated by a signal (Unix only)",
        [("signal", true, int32 "Signal number")]) ]

def launchOptions : Datum :=
  let stream (description : String) : Datum :=
    reference description "StdioMode" [("default", .string "pipe")]
  described "Options controlling how a child process is launched" <| properties
    [ ("workingDirectory", false,
        optionalText "Working directory for the child; the parent's when unset"),
      ("environment", false, textMap "Environment variables to set for the child"),
      ("environmentMode", false,
        reference "Whether the parent's environment is inherited" "EnvironmentMode"
          [("default", .string "inherit")]),
      ("stdin", false, stream "Connection of the child's standard input"),
      ("stdout", false, stream "Connection of the child's standard output"),
      ("stderr", false, stream "Connection of the child's standard error"),
      ("detachProcessGroup", false,
        flag ("Place the child in a new session and process group so termination " ++
          "signals reach every process it spawns") true) ]

def runResult : Datum :=
  described "Output of a process that was run to completion" <| properties
    [ ("exitStatus", true, int32 "Exit status in integer form (see [\x60ExitStatus::code\x60])"),
      ("stdOut", true, text "Everything the process wrote to standard output"),
      ("stdErr", true, text "Everything the process wrote to standard error") ]

def program : Datum :=
  described "A program entry in a supervision file" <| properties
    [ ("name", true, text "Label used to prefix output and events"),
      ("command", true,
        text "Executable to launch, or a shell command line when \x60shell\x60 is set"),
      ("args", false,
        described "Command-line arguments (ignored for shell commands)"
          (("default", .array []) :: texts)),
      ("environment", false, textMap "Environment overrides"),
      ("workingDirectory", false, optionalText "Working directory"),
      ("input", false,
        optionalText "Text written to the program's standard input, which is then closed"),
      ("shell", false, flag "Run \x60command\x60 through \x60/bin/sh -c\x60" false) ]

def event : Datum :=
  let name : String × Bool × Datum := ("name", true, text "Program label")
  let pid : String × Bool × Datum := ("pid", true, nat32 "Process ID")
  let timestamp : String × Bool × Datum :=
    ("timestamp", true, text "Event timestamp in RFC3339 format")
  choices "Events describing one supervised program" "eventType"
    [ ("started", "The program was launched",
        [ name, pid, ("command", true, text "Executable or shell command line"),
          ("args", true, described "Arguments passed to the executable" texts), timestamp ]),
      ("spawnFailed", "The program could not be launched",
        [name, ("error", true, text "Error description"), timestamp]),
      ("output", "The program produced output",
        [ name, pid,
          ("stream", true, reference "Stream the output was read from" "OutputStream"),
          ("content", true, text "Output text"), timestamp ]),
      ("exited", "The program exited",
        [ name, pid, ("status", true, reference "How the program terminated" "ExitStatus"),
          timestamp ]) ]

/-- The schema of each type, by the name under which other documents refer to it. -/
def byName : List (String × Datum) :=
  [ ("StdioMode", document "StdioMode" connection),
    ("EnvironmentMode", document "EnvironmentMode" environmentBase),
    ("OutputStream", document "OutputStream" outputStream),
    ("ExitStatus", document "ExitStatus" exitStatus),
    ("ProcessOptions", document "ProcessOptions" launchOptions
      [("EnvironmentMode", environmentBase), ("StdioMode", connection)]),
    ("ProcessResult", document "ProcessResult" runResult),
    ("ProgramSpec", document "ProgramSpec" program),
    ("ProcessEvent", document "ProcessEvent" event
      [("ExitStatus", exitStatus), ("OutputStream", outputStream)]) ]

end Chaperone.Schema
