/-!
# The command line's options and texts

Which options and arguments each command takes, and what is said to somebody who uses them wrongly.
-/

namespace Chaperone.CommandLine

/-- The commands, and the program itself. -/
inductive Level where
  | program
  | run
  | supervise
  | help
  deriving DecidableEq, Repr, Inhabited

/-- What the value of an option must be. -/
inductive ValueKind where
  | text
  /-- A path, which is not empty. -/
  | path
  /-- A name that is not empty, an equals sign and a value. -/
  | setting
  deriving DecidableEq, Repr, Inhabited

/-- An option. -/
structure OptionRule where
  name : String
  /-- What the value is called and what it must be; a switch has none. -/
  value : Option (String × ValueKind) := none
  repeatable : Bool := false
  help : String
  deriving DecidableEq, Repr, Inhabited

namespace OptionRule

/-- An option as messages show it. -/
def display (rule : OptionRule) : String :=
  "--" ++ rule.name ++ match rule.value with
    | some (value, _) => " <" ++ value ++ ">"
    | none => ""

end OptionRule

/-- The option that every command takes. -/
def logLevel : OptionRule :=
  { name := "log-level", value := some ("LOG_LEVEL", .text)
    help := "Default log filter (RUST_LOG takes precedence) [default: warn]" }

namespace Level

/-- The options of a command. -/
def options : Level → List OptionRule
  | .program => [logLevel]
  | .run =>
    [ { name := "shell", help := "Treat COMMAND as a shell command line" },
      { name := "input", value := some ("INPUT", .text)
        help := "Text written to the program's standard input [default: ]" },
      { name := "cwd", value := some ("DIR", .path), help := "Working directory for the program" },
      { name := "env", value := some ("KEY=VALUE", .setting), repeatable := true
        help := "Environment override, repeatable" },
      { name := "clear-env", help := "Start from an empty environment" },
      logLevel ]
  | .supervise =>
    [ { name := "config", value := some ("FILE", .path)
        help := "Path to the TOML supervision file" },
      { name := "json", help := "Print one JSON event per line instead of prefixed text" },
      logLevel ]
  | .help => []

/-- What a command does. -/
def about : Level → String
  | .program => "Run and supervise child processes"
  | .run => "Run one program to completion and mirror its output and exit code"
  | .supervise => "Launch every program in a supervision file and wait for them"
  | .help => "Print this message or the help of the given subcommand(s)"

/-- How a command is used. -/
def usage : Level → String
  | .program => "Usage: chaperone [OPTIONS] <COMMAND>"
  | .run => "Usage: chaperone run [OPTIONS] <COMMAND> [ARGS]..."
  | .supervise => "Usage: chaperone supervise [OPTIONS] --config <FILE>"
  | .help => "Usage: chaperone help [COMMAND]..."

/-- The name of a command. -/
def name : Level → String
  | .program => "chaperone"
  | .run => "run"
  | .supervise => "supervise"
  | .help => "help"

/-- The command with a name. -/
def command? (name : String) : Option Level := [Level.run, .supervise, .help].find? (·.name = name)

/-- Lines in two columns. -/
def table (rows : List (String × String)) : String :=
  let width := rows.foldl (fun width row => max width row.1.length) 0
  String.join (rows.map fun (left, right) =>
    "  " ++ left ++ String.ofList (List.replicate (width + 2 - left.length) ' ') ++ right ++ "\n")

/-- The options that show something and do nothing else. -/
def shows : Level → List (String × String)
  | .program => [("-h, --help", "Print help"), ("-V, --version", "Print version")]
  | .help => []
  | _ => [("-h, --help", "Print help")]

/-- The arguments of a command, or the commands of the program, under their title. -/
def arguments : Level → String × List (String × String)
  | .program =>
    ("Commands", [Level.run, .supervise, .help].map fun level => (level.name, level.about))
  | .run =>
    ("Arguments", [("<COMMAND>", "Program to run"), ("[ARGS]...", "Arguments for the program")])
  | .supervise => ("Arguments", [])
  | .help => ("Arguments", [("[COMMAND]...", "Print help for the subcommand(s)")])

/-- The help for a command. -/
def helpText (level : Level) : String :=
  let options := level.options.map (fun rule => ("    " ++ rule.display, rule.help)) ++ level.shows
  let sections := [level.arguments, ("Options", options)].filter fun (_, rows) => !rows.isEmpty
  level.about ++ "\n\n" ++ level.usage ++ "\n\n" ++
    "\n".intercalate (sections.map fun (title, rows) => title ++ ":\n" ++ table rows)

end Level

/-- The name and the version of the program. -/
def version : String := "chaperone 0.1.0\n"

/-- How the command line was used wrongly. -/
inductive UsageError where
  | unexpectedArgument (level : Level) (text : String)
  | unrecognizedCommand (level : Level) (text : String)
  | noCommand
  | missingArguments (level : Level) (names : List String)
  | valueRequired (level : Level) (rule : OptionRule)
  | valueUnwanted (level : Level) (rule : String) (value : String)
  | repeated (level : Level) (rule : OptionRule)
  | refusedValue (level : Level) (rule : OptionRule) (value reason : String)
  deriving DecidableEq, Repr, Inhabited

namespace UsageError

/-- The command that was used wrongly. -/
def level : UsageError → Level
  | .unexpectedArgument level _ | .missingArguments level _ | .valueRequired level _
  | .valueUnwanted level _ _ | .repeated level _ | .refusedValue level _ _ _
  | .unrecognizedCommand level _ => level
  | .noCommand => .program

/-- What was wrong. -/
def message : UsageError → String
  | .unexpectedArgument _ text => "unexpected argument '" ++ text ++ "' found"
  | .unrecognizedCommand _ text => "unrecognized subcommand '" ++ text ++ "'"
  | .noCommand => "'chaperone' requires a subcommand but one was not provided\n" ++
      "  [subcommands: run, supervise, help]"
  | .missingArguments _ names =>
    "the following required arguments were not provided:" ++
      String.join (names.map fun name => "\n  " ++ name)
  | .valueRequired _ rule =>
    "a value is required for '" ++ rule.display ++ "' but none was supplied"
  | .valueUnwanted _ rule value =>
    "unexpected value '" ++ value ++ "' for '" ++ rule ++ "' found; no more were expected"
  | .repeated _ rule => "the argument '" ++ rule.display ++ "' cannot be used multiple times"
  | .refusedValue _ rule value reason =>
    "invalid value '" ++ value ++ "' for '" ++ rule.display ++ "': " ++ reason

/-- All that is said. -/
def text (e : UsageError) : String :=
  "error: " ++ e.message ++ "\n\n" ++
    (match e with
      | .refusedValue .. => ""
      | _ => e.level.usage ++ "\n\n") ++
    "For more information, try '--help'.\n"

end UsageError

end Chaperone.CommandLine
