import Chaperone.CommandLine.Usage

/-!
# What a command line asks for

Options may stand before and after the arguments of a command.  The value of an option is the rest
of its word after an equals sign, or the next word; a value is looked at only when the next option
or argument has been seen.  After `--`, and after the first argument of the program that `run` is
to start, every word is an argument.
-/

namespace Chaperone.CommandLine

/-- What to run, and how. -/
structure RunRequest where
  shell : Bool := false
  input : String := ""
  directory : Option String := none
  settings : List (String × String) := []
  clearEnvironment : Bool := false
  command : String
  args : List String := []
  deriving DecidableEq, Repr, Inhabited

/-- What a command line asks for. -/
inductive Invocation where
  | run (request : RunRequest)
  | supervise (config : String) (json : Bool)
  /-- Help, which is on standard error if nobody asked for it. -/
  | help (level : Level) (asked : Bool)
  | version
  deriving DecidableEq, Repr, Inhabited

/-- Why reading the words of a command ends early. -/
inductive Stop where
  | wrong (e : UsageError)
  | help (level : Level)
  | version
  deriving Inhabited

/-- What has been read of a command. -/
structure Progress where
  /-- The options, with the values of those that have one. -/
  found : List (OptionRule × String) := []
  args : List String := []
  /-- An option whose value has not been looked at, or has not come yet. -/
  pending : Option (OptionRule × Option String) := none
  /-- Whether all further words are arguments. -/
  trailing : Bool := false
  deriving Inhabited

namespace Progress

/-- Whether the next word is the value of an option. -/
def awaitsValue (p : Progress) : Bool :=
  match p.pending with
  | some (_, none) => true
  | _ => false

/-- A setting in two parts. -/
def setting? (text : String) : Option (String × String) :=
  let name := text.toList.takeWhile (· != '=')
  match text.toList.drop name.length with
  | '=' :: value => if name.isEmpty then none else some (String.ofList name, String.ofList value)
  | _ => none

/-- Accepts an option with its value. -/
def accept (level : Level) (rule : OptionRule) (value : String) (p : Progress) :
    Except Stop Progress :=
  if !rule.repeatable && p.found.any (·.1 == rule) then throw (.wrong (.repeated level rule))
  else
    let accepted : Except Stop Progress := return { p with found := p.found ++ [(rule, value)] }
    match rule.value with
    | some (_, .path) =>
      if value.isEmpty then throw (.wrong (.valueRequired level rule)) else accepted
    | some (_, .setting) =>
      match setting? value with
      | some _ => accepted
      | none =>
        throw (.wrong
          (.refusedValue level rule value ("expected KEY=VALUE, got '" ++ value ++ "'")))
    | _ => accepted

/-- Looks at the value of the last option. -/
def resolve (level : Level) (p : Progress) : Except Stop Progress :=
  match p.pending with
  | none => return p
  | some (rule, none) => throw (.wrong (.valueRequired level rule))
  | some (rule, some value) => accept level rule value { p with pending := none }

end Progress

/-- Whether the next argument may begin with a hyphen. -/
def hyphenAllowed (level : Level) (p : Progress) : Bool := level == .run && !p.args.isEmpty

/-- Takes a word that is the value of an option or an argument. -/
def takePlain (level : Level) (word : String) (p : Progress) : Except Stop Progress :=
  match p.pending, p.trailing with
  | some (rule, none), false => return { p with pending := some (rule, some word) }
  | _, _ =>
    match level with
    | .run => do
      let p ← p.resolve level
      return { p with args := p.args ++ [word], trailing := p.trailing || !p.args.isEmpty }
    | .supervise => throw (.wrong (.unexpectedArgument level word))
    | .program | .help =>
      if p.trailing && (Level.command? word).isSome then
        throw (.wrong (.unexpectedArgument level word))
      else throw (.wrong (.unrecognizedCommand level word))

/-- Takes an option that is written out. -/
def takeOption (level : Level) (word : String) (p : Progress) : Except Stop Progress :=
  let body := word.toList.drop 2
  let name := String.ofList (body.takeWhile (· != '='))
  let attached := match body.drop name.length with
    | '=' :: value => some (String.ofList value)
    | _ => none
  let switch (display : String) (act : Progress → Except Stop Progress) : Except Stop Progress :=
    match attached with
    | some value => throw (.wrong (.valueUnwanted level display value))
    | none => do act (← p.resolve level)
  match level.options.find? (·.name = name) with
  | some rule =>
    match rule.value, attached with
    | none, _ => switch rule.display (·.accept level rule "")
    | some _, some value => do (← p.resolve level).accept level rule value
    | some _, none => do return { ← p.resolve level with pending := some (rule, none) }
  | none =>
    if name = "help" then switch "--help" fun _ => throw (.help level)
    else if name = "version" && level == .program then switch "--version" fun _ => throw .version
    else if hyphenAllowed level p then takePlain level word p
    else throw (.wrong (.unexpectedArgument level ("--" ++ name)))

/-- Whether a letter is an option. -/
def isLetter (level : Level) (c : Char) : Bool := c == 'h' || (c == 'V' && level == .program)

/-- Takes letters after a hyphen. -/
def takeLetters (level : Level) (word : String) (p : Progress) : Except Stop Progress :=
  let letters := word.toList.drop 1
  if hyphenAllowed level p && letters.any fun c => !isLetter level c then takePlain level word p
  else
    match letters with
    | c :: _ =>
      if isLetter level c then do
        let _ ← p.resolve level
        throw (if c == 'h' then .help level else .version)
      else throw (.wrong (.unexpectedArgument level ("-" ++ String.singleton c)))
    | [] => takePlain level word p

/-- Takes a word. -/
def takeWord (level : Level) (word : String) (p : Progress) : Except Stop Progress :=
  if p.trailing then takePlain level word p
  else if word = "--" then return { p with trailing := true }
  else if word.startsWith "--" then takeOption level word p
  else if word.startsWith "-" && word.length > 1 then takeLetters level word p
  else takePlain level word p

/-- Reads the words of a command. -/
def readWords (level : Level) (words : List String) : Except Stop Progress := do
  (← words.foldlM (fun p word => takeWord level word p) {}).resolve level

/-- The value of an option. -/
def Progress.value? (p : Progress) (name : String) : Option String :=
  (p.found.find? (·.1.name = name)).map (·.2)

/-- Whether an option is there. -/
def Progress.has (p : Progress) (name : String) : Bool := (p.value? name).isSome

/-- Reads the words after `run`. -/
def readRun (words : List String) : Except Stop Invocation := do
  let p ← readWords .run words
  match p.args with
  | [] => throw (.wrong (.missingArguments .run ["<COMMAND>"]))
  | command :: args =>
    return .run {
      shell := p.has "shell"
      input := (p.value? "input").getD ""
      directory := p.value? "cwd"
      settings := (p.found.filter (·.1.name = "env")).filterMap fun e => Progress.setting? e.2
      clearEnvironment := p.has "clear-env"
      command, args }

/-- Reads the words after `supervise`. -/
def readSupervise (words : List String) : Except Stop Invocation := do
  let p ← readWords .supervise words
  match p.value? "config" with
  | none => throw (.wrong (.missingArguments .supervise ["--config <FILE>"]))
  | some config => return .supervise config (p.has "json")

/-- Reads the words after `help`: the way to a command, on which there are no commands below the
first one. -/
def readHelp (level : Level) : List String → Except Stop Invocation
  | [] => return .help level true
  | word :: rest =>
    match level, Level.command? word with
    | .program, some below => readHelp below rest
    | level, _ => throw (.wrong (.unrecognizedCommand level word))

/-- Reads words up to the name of a command, and the words of the command. -/
def readCommand (p : Progress) : List String → Except Stop Invocation
  | [] => do
    let p ← p.resolve .program
    if p.found.isEmpty then return .help .program false else throw (.wrong .noCommand)
  | word :: rest =>
    if p.trailing || p.awaitsValue then do readCommand (← takeWord .program word p) rest
    else
      let found (command : Except Stop Invocation) : Except Stop Invocation := do
        let invocation ← command
        let _ ← p.resolve .program
        return invocation
      match Level.command? word with
      | some .run => found (readRun rest)
      | some .supervise => found (readSupervise rest)
      | some .help => readHelp .program rest
      | _ => do readCommand (← takeWord .program word p) rest

/-- What a command line asks for. -/
def Invocation.read (words : List String) : Except UsageError Invocation :=
  match readCommand {} words with
  | .ok invocation => .ok invocation
  | .error (.wrong e) => .error e
  | .error (.help level) => .ok (.help level true)
  | .error .version => .ok .version

end Chaperone.CommandLine
