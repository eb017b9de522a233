import Chaperone.Process.Options

/-!
# Programs of a supervision file
-/

namespace Chaperone

/-- A program to supervise. -/
structure Program where
  /-- What output and events are labelled with. -/
  name : String
  /-- The executable, or a command line for the shell. -/
  command : String
  /-- The arguments of an executable. -/
  args : List String := []
  /-- Variables that the program gets on top of the launcher's. -/
  environment : Environment := .empty
  workingDirectory : Option String := none
  /-- What the program reads on its standard input, which ends there. -/
  input : Option String := none
  /-- Whether `command` is a command line for the shell. -/
  shell : Bool := false
  deriving DecidableEq, Repr, Inhabited

namespace Program

/-- How the program is launched. -/
def options (program : Program) : LaunchOptions :=
  { workingDirectory := program.workingDirectory, environment := program.environment }

/-- The document form of a program. -/
def toDatum (program : Program) : Datum :=
  .object <|
    [ ("name", .string program.name),
      ("command", .string program.command),
      ("args", .array (program.args.map .string)),
      ("environment", program.environment.toDatum) ] ++
    (program.workingDirectory.map fun path => ("workingDirectory", Datum.string path)).toList ++
    (program.input.map fun text => ("input", Datum.string text)).toList ++
    [("shell", .bool program.shell)]

/-- The fields of the document form. -/
def rules : List FieldRule :=
  [ .needed "name" Decode.text,
    .needed "command" Decode.text,
    .optional "args" (Decode.list Decode.text),
    .optional "environment" Environment.decode,
    .optional "workingDirectory" (Decode.nullable Decode.path),
    .optional "input" (Decode.nullable Decode.text),
    .optional "shell" Decode.bool ]

/-- A program from its document form. -/
def decode : Decode Program := fun delivery d => do
  let fields ← Fields.read "struct ProgramSpec" rules delivery d
  return {
    name := ← fields.get delivery "name" Decode.text
    command := ← fields.get delivery "command" Decode.text
    args := ← fields.getD delivery "args" (Decode.list Decode.text) []
    environment := ← fields.getD delivery "environment" Environment.decode .empty
    workingDirectory :=
      ← fields.getD delivery "workingDirectory" (Decode.nullable Decode.path) none
    input := ← fields.getD delivery "input" (Decode.nullable Decode.text) none
    shell := ← fields.getD delivery "shell" Decode.bool false }

end Program

end Chaperone
