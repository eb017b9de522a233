import Chaperone.Machine.Shell.Expansion
import Chaperone.Machine.Shell.Reader
import Chaperone.Machine.Shell.Redirect

/-!
# The shell at work

A program runs in a child, unless the shell has nothing left to do after it: then the shell becomes
the program.  The parts of a pipeline and commands in parentheses run in children of their own.

A command leaves the shell with its status, and with `leaving` set if the commands after it do not
count any more.  Whatever leaves the shell itself, on purpose or because of a failure, is passed on
in this way until the outermost script ends.
-/

namespace Chaperone.Machine.Shell

open Routine

/-- How a command is run. -/
structure Manner where
  /-- Whether the shell has nothing left to do after it. -/
  exits : Bool := false
  /-- Whether somebody looks at its status, so that a failure does not end the shell. -/
  tested : Bool := false
  deriving Inhabited

/-- The same command, with something to do after it. -/
def Manner.stays (m : Manner) : Manner := { m with exits := false }

/-- A command whose status decides about another one. -/
def Manner.condition : Manner := { tested := true }

/-- Time that a simple command takes, in microseconds. -/
def effort : Nat := 5

namespace Session

/-- Leaves the shell, because of a failure or on purpose. -/
def leave (sh : Session) (how : Leaving) : Session := { sh with leaving := some how }

/-- Goes on after a failure that need not end the shell. -/
def recover (sh : Session) : Session :=
  if sh.leaving = some .abort then { sh with leaving := none } else sh

/-- Leaves the shell after a failure that nobody looks at, if it is to end then. -/
def check (sh : Session) (m : Manner) : Session :=
  if sh.status ≠ 0 && !m.tested && sh.has 'e' then sh.leave .exit else sh

/-- What a loop does after its body: the shell, and whether the loop ends. -/
def afterBody (sh : Session) : Session × Bool :=
  match sh.leaving with
  | none => (sh, false)
  | some (.break n) => ({ sh with leaving := if n ≤ 1 then none else some (.break (n - 1)) }, true)
  | some (.continue n) =>
    if n ≤ 1 then ({ sh with leaving := none }, false)
    else ({ sh with leaving := some (.continue (n - 1)) }, true)
  | some _ => (sh, true)

/-- A loop has begun. -/
def enterLoop (sh : Session) : Session := { sh with loops := sh.loops + 1 }

/-- A loop has ended. -/
def exitLoop (sh : Session) : Session := { sh with loops := sh.loops - 1 }

/-- The function or script has ended from which the shell was to return. -/
def returned (sh : Session) : Session :=
  if sh.leaving = some .return then { sh with leaving := none } else sh

end Session

/-! ## Commands that change the course of the shell -/

namespace Builtin

/-- Leaves loops, or with `again` goes on with the next round. -/
def leaveLoops (again : Bool) : Builtin := fun sh args => do
  match args with
  | [] => leaveMany sh 1
  | text :: _ =>
    match number? text with
    | some 0 | none => sh.abort (illegalNumber text)
    | some n => leaveMany sh n
where
  /-- Leaves so many loops, if there are that many. -/
  leaveMany (sh : Session) (n : Nat) : Routine Session :=
    let n := min n sh.loops
    return { sh with
      status := 0
      leaving := if n = 0 then none else some (if again then .continue n else .break n) }

/-- Leaves the present function or script, or the shell. -/
def leave (how : Leaving) : Builtin := fun sh args => do
  match args with
  | [] =>
    let status := if how = .exit then sh.statusBefore.getD sh.status else sh.status
    return (sh.withStatus status).leave how
  | text :: _ =>
    match number? text with
    | some n => return (sh.withStatus n).leave how
    | none => sh.abort (illegalNumber text)

/-- Becomes a program. -/
def exec : Builtin := fun sh args => do
  match args with
  | [] => return sh.withStatus 0
  | name :: _ =>
    match ← findProgram sh sh.searchPath name with
    | (sh, .error errno) => return (sh.withStatus (← cannotRun sh name errno)).leave .exit
    | (sh, .ok path) => return (sh.withStatus (← become sh path args)).leave .exit

/-- Says what names stand for. -/
def type : Builtin := fun sh args => describeEach names (sh.withStatus 0) args

/-- What is left for `command` itself: to say what a name stands for. -/
def command : Builtin := fun sh args =>
  withOptions "pvV" sh args fun found args => do
    let directories := if found.any (·.1 == 'p') then standardPath else sh.searchPath
    match (found.filter (·.1 != 'p')).getLast?, args with
    | some (letter, _), name :: _ =>
      describe (letter == 'V') names directories (sh.withStatus 0) name
    | _, _ => return sh.withStatus 0

/-- The builtins that run no script. -/
def plain : List (String × Builtin) :=
  byName ++
    [ ("break", leaveLoops false), ("continue", leaveLoops true), ("return", leave .return),
      ("exit", leave .exit), ("exec", exec), ("type", type), ("command", command),
      ("wait", wait) ]

end Builtin

/-! ## Words of commands -/

/-- What stands behind some uses of `command`: whether programs are looked for in the standard
search path only, and the words. -/
def unwrapped (standard : Bool) : List String → Option (Bool × List String)
  | [] => none
  | "-p" :: rest => unwrapped true rest
  | "--" :: rest => if rest.isEmpty then none else some (standard, rest)
  | word :: rest => if word.startsWith "-" then none else some (standard, word :: rest)

/-- What the words of a command stand for once nothing hides behind `command`. -/
structure Invocation where
  words : List String
  /-- Whether `command` was used. -/
  wrapped : Bool := false
  /-- Whether programs are looked for in the standard search path only. -/
  standard : Bool := false

/-- Takes every use of `command` off the words. -/
def Invocation.unwrap (fuel : Nat) (i : Invocation) : Invocation :=
  match fuel, i.words with
  | fuel + 1, "command" :: rest =>
    match unwrapped i.standard rest with
    | some (standard, words) => unwrap fuel { words, wrapped := true, standard }
    | none => { i with wrapped := true }
  | _, _ => i

/-- Whether words behind this one that set variables are not split. -/
def isDeclaration (word : String) : Bool := ["export", "readonly", "local"].contains word

/-- The words of a command.  Behind a declaration, a word that sets a variable is one field. -/
def expandCommand (h : Helpers) (declares : Bool) (sh : Session) :
    List Word → Routine (Session × List String)
  | [] => return (sh, [])
  | word :: rest => do
    let (sh, first) ← match if declares then settingOf word else none with
      | some (name, value) => do
        let (sh, text) ← expandText h sh (withHomes sh value)
        pure (sh, [name ++ "=" ++ text])
      | none => expandWords h sh [word]
    let further : Routine (Session × List String) :=
      match declares, first.head? with
      | true, _ => expandCommand h true sh rest
      | false, none | false, some "command" => expandCommand h false sh rest
      | false, some name =>
        if isDeclaration name then expandCommand h true sh rest else expandWords h sh rest
    let (sh, others) ← further
    return (sh, first ++ others)

/-- Shows a command before it is run. -/
def trace (sh : Session) (fd : Nat) (settings : List (String × String)) (words : List String) :
    Routine Unit :=
  if sh.has 'x' then
    say fd ((sh.value? "PS4").getD "" ++
      " ".intercalate ((settings.map fun (name, value) => name ++ "=" ++ value) ++ words) ++ "\n")
  else return

/-- Sets variables that keep their values after the command. -/
def setEach (sh : Session) (exported : Bool) (settings : List (String × String)) : Session :=
  settings.foldl (fun sh (name, value) =>
    if exported then sh.setExported name value else sh.set name value) sh

/-- Runs a program. -/
def program (m : Manner) (sh : Session) (i : Invocation) : Routine Session := do
  let directories := if i.standard then standardPath else sh.searchPath
  match ← findProgram sh directories (i.words.headD "") with
  | (sh, .error errno) =>
    sh.complain (i.words.headD "" ++ ": " ++ obstacle errno)
    return sh.withStatus 127
  | (sh, .ok path) =>
    let start : Routine Unit := do
      exit (← become sh path i.words)
    if m.exits && !sh.hasTraps then
      start
      return sh
    else
      let pid ← fork do
        dropTraps sh.traps
        start
      let (sh, status) ← awaitJob [pid] sh
      return sh.withStatus status

/-- Finds a script in some directories. -/
def findScript (name : String) : List String → Routine (Option String)
  | [] => return none
  | entry :: rest => do
    let path := if entry.isEmpty then name else entry ++ "/" ++ name
    match ← ask (.look path) with
    | .ok node => if node.isRegular then return some path else findScript name rest
    | .error _ => findScript name rest

mutual

/-- Runs a command. -/
def run (fuel : Nat) (m : Manner) (c : Command) (sh : Session) : Routine Session :=
  match fuel with
  | 0 => return sh
  | fuel + 1 =>
    if sh.has 'n' then return sh
    else
      match c with
      | .nothing => return sh
      | .simple line settings words redirections => do
        let _ ← ask (.compute effort)
        let sh ← simpleCommand fuel m { sh with line } settings words redirections
        return (← caught fuel sh).check m
      | .pipeline parts => do
        let (sh, status) ← awaitJob (← startParts fuel m false sh none parts) sh
        return (← caught fuel (sh.withStatus status)).check m
      | .negated c => do
        let sh ← run fuel .condition c sh
        if sh.leaving.isSome then return sh
        else return sh.withStatus (if sh.status = 0 then 1 else 0)
      | .both first second => do
        let sh ← run fuel .condition first sh
        if sh.leaving.isSome || sh.status ≠ 0 then return sh else run fuel m second sh
      | .either first second => do
        let sh ← run fuel .condition first sh
        if sh.leaving.isSome || sh.status = 0 then return sh else run fuel m second sh
      | .sequence first second => do
        let sh ← run fuel m.stays first sh
        if sh.leaving.isSome then return sh else run fuel m second sh
      | .background c => do
        let pids ← match c with
          | .pipeline parts => startParts fuel m true sh none parts
          | c => do
            let pid ← fork do
              dropTraps sh.traps
              enterBackground true
              inside fuel {} c sh
            pure [pid]
        return { sh with lastStarted := pids.getLast?, jobs := pids :: sh.jobs, status := 0 }
      | .subshell line body redirections => do
        let (sh, openings) ← expandAll fuel { sh with line } redirections
        let child (sh : Session) : Routine Session := do
          match ← openAll (sh.has 'C') openings with
          | none => run fuel { m with exits := true } body sh
          | some complaint => sh.abort complaint
        if m.exits && !sh.hasTraps then child sh
        else
          let pid ← fork do
            dropTraps sh.traps
            finish fuel (← child sh.inChild)
          let (sh, status) ← awaitJob [pid] sh
          return (← caught fuel (sh.withStatus status)).check m
      | .redirected line body redirections => do
        let (sh, openings) ← expandAll fuel { sh with line } redirections
        within sh openings false (·.check m) fun _ => run fuel m.stays body sh
      | .branch condition body otherwise => do
        let sh ← run fuel .condition condition sh
        if sh.leaving.isSome then return sh
        else if sh.status = 0 then run fuel m body sh
        else
          match otherwise with
          | .nothing => return sh.withStatus 0
          | otherwise => run fuel m otherwise sh
      | .loop inverted condition body => do
        let sh ← looping fuel m.stays inverted condition body 0 sh.enterLoop
        return sh.exitLoop
      | .each line name words body => do
        let (sh, values) ← match words with
          | none => pure (sh, sh.args)
          | some words => expandWords (helpers fuel) { sh with line } words
        if sh.isConstant name then sh.abort (name ++ ": is read only")
        else
          let sh ← eachValue fuel m.stays name body values (sh.withStatus 0).enterLoop
          return sh.exitLoop
      | .choice line word cases => do
        let (sh, text) ← expandText (helpers fuel) { sh with line } (withHome sh word)
        choose fuel m text cases sh
      | .define name body =>
        return { sh with
          functions := (name, body) :: sh.functions.filter (·.1 ≠ name), status := 0 }

/-- The whole of a child: a command, and then the end. -/
def inside (fuel : Nat) (m : Manner) (c : Command) (sh : Session) : Routine Unit :=
  match fuel with
  | 0 => return
  | fuel + 1 => do
    let sh ← run fuel { m with exits := true } c sh.inChild
    finish fuel sh

/-- Ends the shell with the status of the last command, after what is to be run at the end. -/
def finish (fuel : Nat) (sh : Session) : Routine Unit :=
  match fuel with
  | 0 => exit sh.status
  | fuel + 1 => do
    match sh.traps.lookup 0 with
    | some action =>
      let after ← runSource fuel {} { text := action.toList }
        { sh with
          traps := sh.traps.filter (·.1 ≠ 0), leaving := none, statusBefore := some sh.status
          command := none, loops := 0, inFunction := false }
      match after.leaving with
      | some .exit | some .abort => exit after.status
      | _ => exit sh.status
    | none => exit sh.status

/-- What expansion needs. -/
def helpers (fuel : Nat) : Helpers :=
  match fuel with
  | 0 => { output := fun _ sh => return (sh, ""), fail := fun sh => .exit sh.status }
  | fuel + 1 =>
    { output := fun c sh => substitute fuel c sh, fail := fun sh => (finish fuel sh).toTask }

/-- Runs what is to be run for the signals that have arrived. -/
def caught (fuel : Nat) (sh : Session) : Routine Session :=
  match fuel with
  | 0 => return sh
  | fuel + 1 => do
    let sh ← notice sh
    runTraps fuel { sh with arrived := [] } sh.arrived

/-- Runs what is to be run for some signals. -/
def runTraps (fuel : Nat) (sh : Session) (signals : List Nat) : Routine Session :=
  match fuel with
  | 0 => return sh
  | fuel + 1 => do
    match signals with
    | [] => return sh
    | signal :: rest =>
      match sh.traps.lookup signal with
      | none => runTraps fuel sh rest
      | some action =>
        let leaving := sh.leaving
        let before := sh.statusBefore
        let after ← runSource fuel {} { text := action.toList }
          { sh with leaving := none, statusBefore := some (before.getD sh.status) }
        match after.leaving with
        | some _ => return { after with statusBefore := before }
        | none =>
          runTraps fuel { after with leaving, status := sh.status, statusBefore := before } rest

/-- Runs a loop; `status` is that of the last body. -/
def looping (fuel : Nat) (m : Manner) (inverted : Bool) (condition body : Command) (status : Nat)
    (sh : Session) : Routine Session :=
  match fuel with
  | 0 => return sh
  | fuel + 1 => do
    let sh ← run fuel .condition condition sh
    match sh.leaving with
    | some how =>
      let (sh, ended) := sh.afterBody
      let sh := if how matches .break _ | .continue _ then sh.withStatus status else sh
      if ended then return sh else looping fuel m inverted condition body status sh
    | none =>
      if (sh.status = 0) = inverted then return sh.withStatus status
      else
        let sh ← run fuel m body sh
        let (sh, ended) := sh.afterBody
        if ended then return sh else looping fuel m inverted condition body sh.status sh

/-- Runs the body of a `for` for some values. -/
def eachValue (fuel : Nat) (m : Manner) (name : String) (body : Command) (values : List String)
    (sh : Session) : Routine Session :=
  match fuel with
  | 0 => return sh
  | fuel + 1 => do
    match values with
    | [] => return sh
    | value :: rest =>
      let sh ← run fuel m body (sh.set name value)
      let (sh, ended) := sh.afterBody
      if ended then return sh else eachValue fuel m name body rest sh

/-- Runs the command of the first case that a text matches. -/
def choose (fuel : Nat) (m : Manner) (text : String) (cases : List (List Word × Command))
    (sh : Session) : Routine Session :=
  match fuel with
  | 0 => return sh
  | fuel + 1 => do
    match cases with
    | [] => return sh.withStatus 0
    | ([], _) :: rest => choose fuel m text rest sh
    | (pattern :: more, body) :: rest =>
      let (sh, atoms) ← expandPattern (helpers fuel) sh pattern
      if Pattern.matches? atoms text.toList then
        match body with
        | .nothing => return sh.withStatus 0
        | body => run fuel m body sh
      else choose fuel m text ((more, body) :: rest) sh

/-- Starts the parts of a pipeline; `input` is what the first of them reads. -/
def startParts (fuel : Nat) (m : Manner) (background : Bool) (sh : Session) (input : Option Nat)
    (parts : List Command) : Routine (List Nat) :=
  match fuel with
  | 0 => return []
  | fuel + 1 => do
    let enter : Routine Unit := do
      dropTraps sh.traps
      if background then enterBackground input.isNone
    let connectInput : Routine Unit := do
      match input with
      | some fd => move fd 0
      | none => pure ()
    let closeInput : Routine Unit := do
      match input with
      | some fd =>
        let _ ← ask (.close fd)
      | none => pure ()
    match parts with
    | [] => return []
    | [part] =>
      let pid ← fork do
        enter
        connectInput
        inside fuel m part sh
      closeInput
      return [pid]
    | part :: rest =>
      let (reading, writing) ← ask .pipe
      let pid ← fork do
        enter
        let _ ← ask (.close reading)
        connectInput
        move writing 1
        inside fuel m part sh
      closeInput
      let _ ← ask (.close writing)
      return pid :: (← startParts fuel m background sh (some reading) rest)

/-- The output of a command. -/
def substitute (fuel : Nat) (c : Command) (sh : Session) : Routine (Session × String) :=
  match fuel, c with
  | 0, _ => return (sh, "")
  | _, .nothing => return ({ sh with outputStatus := 0 }, "")
  | fuel + 1, c => do
    let (reading, writing) ← ask .pipe
    let pid ← fork do
      dropTraps sh.traps
      let _ ← ask (.close reading)
      move writing 1
      inside fuel {} c sh
    let _ ← ask (.close writing)
    let bytes ← readAll reading
    let _ ← ask (.close reading)
    let (sh, outputStatus) ← awaitJob [pid] sh
    let text := match bytes with
      | .ok bytes => ofBytes (bytes.filter (· ≠ 0))
      | .error _ => ""
    return ({ sh with outputStatus }, text)

/-- The redirections with what their words stand for. -/
def expandAll (fuel : Nat) (sh : Session) (redirections : List Redirection) :
    Routine (Session × List Opening) :=
  match fuel with
  | 0 => return (sh, [])
  | fuel + 1 => do
    match redirections with
    | [] => return (sh, [])
    | .of fd direction word :: rest =>
      let word := if direction = .document then word else withHome sh word
      let (sh, target) ← expandText (helpers fuel) sh word
      if direction = .duplicate && !isFileNumber target then
        (helpers fuel).abort sh "Syntax error: Bad fd number"
      else
        let (sh, others) ← expandAll fuel sh rest
        return (sh, ⟨fd, direction, target⟩ :: others)

/-- What variables are set to.  With `set`, each is set before the next is looked at. -/
def expandSettings (fuel : Nat) (settings : List (String × Word)) (sh : Session) :
    Routine (Session × List (String × String)) :=
  match fuel with
  | 0 => return (sh, [])
  | fuel + 1 => do
    match settings with
    | [] => return (sh, [])
    | (name, word) :: rest =>
      let (sh, value) ← expandText (helpers fuel) sh (withHomes sh word)
      if sh.isConstant name then (helpers fuel).abort sh (name ++ ": is read only")
      else
        let (sh, others) ← expandSettings fuel rest (sh.set name value)
        return (sh, (name, value) :: others)

/-- Runs a simple command. -/
def simpleCommand (fuel : Nat) (m : Manner) (sh : Session) (settings : List (String × Word))
    (words : List Word) (redirections : List Redirection) : Routine Session :=
  match fuel with
  | 0 => return sh
  | fuel + 1 => do
    let (sh, fields) ← expandCommand (helpers fuel) false { sh with outputStatus := 0 } words
    let isFunction (name : String) : Bool := (sh.functions.lookup name).isSome
    let i : Invocation := if isFunction "command" then { words := fields }
      else Invocation.unwrap fields.length { words := fields }
    let name := i.words.headD ""
    let special := !i.wrapped && (specialBuiltins.contains name || i.words.isEmpty)
    let (sh, openings) ← expandAll fuel sh redirections
    let failed (sh : Session) : Session :=
      if special && !i.words.isEmpty then sh.leave .abort else sh
    within sh openings (name = "exec") failed fun errors => do
      let before := settings.map fun (name, _) => (name, sh.declared? name)
      let (sh, values) ← expandSettings fuel settings sh
      if !values.isEmpty || !fields.isEmpty then trace sh errors values fields
      if i.words.isEmpty then return sh.withStatus sh.outputStatus
      else if special then
        let sh := if name = "exec" && 1 < i.words.length then setEach sh true values else sh
        builtin fuel m sh name (i.words.drop 1)
      else
        let sh := setEach sh true values
        let back (sh : Session) : Session := Builtin.giveBack sh before.reverse
        match if i.wrapped then none else sh.functions.lookup name with
        | some body =>
          return back (← callFunction fuel m sh body (i.words.drop 1))
        | none =>
          if Builtin.names.contains name then
            return back (← builtin fuel m sh name (i.words.drop 1)).recover
          else return back (← program m sh i)

/-- Calls a function. -/
def callFunction (fuel : Nat) (m : Manner) (sh : Session) (body : Command)
    (args : List String) : Routine Session :=
  match fuel with
  | 0 => return sh
  | fuel + 1 => do
    let after ← run fuel m.stays body
      { sh with
        args, inFunction := true, locals := [], loops := 0, optionIndex := 1
        optionPlace := 0 }
    let after := Builtin.giveBack after after.locals
    return { after.returned with
      args := sh.args, inFunction := sh.inFunction, locals := sh.locals, loops := sh.loops
      optionIndex := sh.optionIndex, optionPlace := sh.optionPlace }

/-- Runs a builtin. -/
def builtin (fuel : Nat) (m : Manner) (sh : Session) (name : String) (args : List String) :
    Routine Session :=
  match fuel with
  | 0 => return sh
  | fuel + 1 => do
    let outer := sh.command
    let sh := { sh with command := some name }
    let sh ←
      if name = "eval" then
        runSource fuel m.stays { text := (" ".intercalate args).toList } (sh.withStatus 0)
      else if name = "." then sourceFile fuel m sh args
      else
        match Builtin.plain.lookup name with
        | some builtin => builtin sh args
        | none => pure sh
    return { sh with command := outer }

/-- Runs the script in a file. -/
def sourceFile (fuel : Nat) (m : Manner) (sh : Session) (args : List String) : Routine Session :=
  match fuel with
  | 0 => return sh
  | fuel + 1 => do
    match if args.head? = some "--" then args.drop 1 else args with
    | [] => return sh.withStatus 0
    | name :: _ =>
      let path ← if name.contains '/' then pure (some name) else findScript name sh.searchPath
      match path with
      | none => sh.abort (name ++ ": not found")
      | some path =>
        match ← ask (.openFile path .read) with
        | .error errno =>
          let gone := errno = Errno.noEntry || errno = Errno.notDirectory
          sh.abort
            ("cannot open " ++ path ++ ": " ++ (if gone then "No such file" else reason errno))
        | .ok fd =>
          let bytes ← readAll fd
          let _ ← ask (.close fd)
          let text := match bytes with
            | .ok bytes => ofBytes bytes
            | .error _ => ""
          let sh := { sh with command := some path, status := 0 }
          return (← runSource fuel m.stays { text := text.toList } sh).returned

/-- Runs a script line by line. -/
def runSource (fuel : Nat) (m : Manner) (s : Source) (sh : Session) : Routine Session :=
  match fuel with
  | 0 => return sh
  | fuel + 1 => do
    match readLine s with
    | .error complaint => ({ sh with line := complaint.line }).abort complaint.text
    | .ok line =>
      match line.command with
      | none => return sh
      | some c =>
        let sh ← run fuel { m with exits := m.exits && !line.complete } c sh
        if sh.leaving.isSome then return sh
        else runSource fuel m line.rest sh

end

end Chaperone.Machine.Shell
