import Chaperone.Document.Decode
import Chaperone.Process.Environment

/-!
# How a program is launched

Each standard stream of a child is connected to a pipe that the launcher holds the other end of,
to the launcher's own stream, or to the null device.  Only piped streams can be read and written
by the launcher.
-/

namespace Chaperone

/-- What a standard stream is connected to. -/
inductive Connection where
  | pipe
  | inherit
  | null
  deriving DecidableEq, Repr, Inhabited

namespace Connection

/-- The names of the connections. -/
def known : List (String × Connection) := [("pipe", .pipe), ("inherit", .inherit), ("null", .null)]

/-- The name of a connection. -/
def name : Connection → String
  | .pipe => "pipe"
  | .inherit => "inherit"
  | .null => "null"

/-- A connection from its document form. -/
def decode : Decode Connection := Decode.choice known

end Connection

/-- What the child's environment is built on. -/
inductive EnvironmentBase where
  /-- The launcher's environment. -/
  | inherit
  /-- Nothing. -/
  | clear
  deriving DecidableEq, Repr, Inhabited

namespace EnvironmentBase

/-- The names of the bases. -/
def known : List (String × EnvironmentBase) := [("inherit", .inherit), ("clear", .clear)]

/-- The name of a base. -/
def name : EnvironmentBase → String
  | .inherit => "inherit"
  | .clear => "clear"

/-- A base from its document form. -/
def decode : Decode EnvironmentBase := Decode.choice known

end EnvironmentBase

/-- How a program is launched. -/
structure LaunchOptions where
  /-- Where the child starts; where the launcher is if absent. -/
  workingDirectory : Option String := none
  /-- Variables that the child gets on top of the base. -/
  environment : Environment := .empty
  environmentBase : EnvironmentBase := .inherit
  stdin : Connection := .pipe
  stdout : Connection := .pipe
  stderr : Connection := .pipe
  /-- Whether the child leads a session and process group of its own, so that signals reach
  everything that it starts. -/
  detachProcessGroup : Bool := true
  deriving DecidableEq, Repr, Inhabited

namespace Environment

/-- The document form of an environment. -/
def toDatum (environment : Environment) : Datum :=
  .object (environment.entries.map fun (name, value) => (name, .string value))

/-- An environment from its document form. -/
def decode : Decode Environment := fun delivery d =>
  (Decode.members Decode.text delivery d).map ofList

end Environment

namespace LaunchOptions

/-- Sets the working directory. -/
def withWorkingDirectory (options : LaunchOptions) (path : String) : LaunchOptions :=
  { options with workingDirectory := some path }

/-- Gives the child a variable. -/
def withVariable (options : LaunchOptions) (name value : String) : LaunchOptions :=
  { options with environment := options.environment.insert name value }

/-- The document form of launch options. -/
def toDatum (options : LaunchOptions) : Datum :=
  .object <|
    (options.workingDirectory.map fun path => ("workingDirectory", Datum.string path)).toList ++
    [ ("environment", options.environment.toDatum),
      ("environmentMode", .string options.environmentBase.name),
      ("stdin", .string options.stdin.name),
      ("stdout", .string options.stdout.name),
      ("stderr", .string options.stderr.name),
      ("detachProcessGroup", .bool options.detachProcessGroup) ]

/-- The fields of the document form. -/
def rules : List FieldRule :=
  [ .optional "workingDirectory" (Decode.nullable Decode.path),
    .optional "environment" Environment.decode,
    .optional "environmentMode" EnvironmentBase.decode,
    .optional "stdin" Connection.decode,
    .optional "stdout" Connection.decode,
    .optional "stderr" Connection.decode,
    .optional "detachProcessGroup" Decode.bool ]

/-- Launch options from their document form. -/
def decode : Decode LaunchOptions := fun delivery d => do
  let fields ← Fields.read "struct ProcessOptions" rules delivery d
  return {
    workingDirectory :=
      ← fields.getD delivery "workingDirectory" (Decode.nullable Decode.path) none
    environment := ← fields.getD delivery "environment" Environment.decode .empty
    environmentBase := ← fields.getD delivery "environmentMode" EnvironmentBase.decode .inherit
    stdin := ← fields.getD delivery "stdin" Connection.decode .pipe
    stdout := ← fields.getD delivery "stdout" Connection.decode .pipe
    stderr := ← fields.getD delivery "stderr" Connection.decode .pipe
    detachProcessGroup := ← fields.getD delivery "detachProcessGroup" Decode.bool true }

end LaunchOptions

end Chaperone
