import Chaperone.Machine.Routine
import Chaperone.Machine.Shell.Command

/-!
# The state of the shell

The variables, the arguments and whatever else lasts from one command to the next.
-/

namespace Chaperone.Machine.Shell

open Routine

/-- A variable; it may be declared without a value. -/
structure Variable where
  name : String
  value : Option String
  /-- Whether programs are given it. -/
  exported : Bool := false
  /-- Whether it keeps its value for ever. -/
  constant : Bool := false
  deriving DecidableEq, Repr, Inhabited

/-- What the shell is leaving. -/
inductive Leaving where
  | break (loops : Nat)
  | continue (loops : Nat)
  /-- The present function or script. -/
  | return
  /-- The shell itself. -/
  | exit
  /-- The same, because of a failure. -/
  | abort
  deriving DecidableEq, Repr, Inhabited

/-- What the shell keeps between commands. -/
structure Session where
  /-- The zeroth argument. -/
  name : String := "sh"
  args : List String := []
  vars : List Variable := []
  functions : List (String × Command) := []
  /-- The letters of the options that are on. -/
  options : List Char := []
  /-- How the last command ended. -/
  status : Nat := 0
  /-- How the last command ended whose output was put into the present one. -/
  outputStatus : Nat := 0
  /-- The number of the process that began. -/
  pid : Nat := 0
  /-- The last program that was started in the background. -/
  lastStarted : Option Nat := none
  /-- The children of each command that was started in the background, newest command first. -/
  jobs : List (List Nat) := []
  /-- The status words of children that have ended. -/
  ended : List (Nat × Nat) := []
  /-- What to run when a signal arrives, or at the end under the number zero. -/
  traps : List (Nat × String) := []
  /-- Signals that have arrived and for which nothing has been run yet. -/
  arrived : List Nat := []
  /-- How the last command ended before what is being run for a signal or at the end. -/
  statusBefore : Option Nat := none
  line : Nat := 1
  /-- The command that is at work inside the shell, if any. -/
  command : Option String := none
  /-- Whether the present command belongs to a function. -/
  inFunction : Bool := false
  /-- What the variables were that the present function has made its own. -/
  locals : List (String × Option Variable) := []
  /-- How many loops the present command is in. -/
  loops : Nat := 0
  leaving : Option Leaving := none
  /-- The argument that `getopts` looks at next. -/
  optionIndex : Nat := 1
  /-- The place in the argument before it, if that has several options, that `getopts` has come
  to. -/
  optionPlace : Nat := 0
  /-- The programs that have been found in the search path. -/
  found : List String := []
  /-- The permissions that new files do not get. -/
  mask : Nat := 0o22
  deriving Inhabited

namespace Session

/-- The shell after a command that ended so. -/
def withStatus (sh : Session) (status : Nat) : Session := { sh with status }

/-- Whether an option is on. -/
def has (sh : Session) (option : Char) : Bool := sh.options.contains option

/-- A variable that has been declared. -/
def declared? (sh : Session) (name : String) : Option Variable := sh.vars.find? (·.name = name)

/-- The value of a variable. -/
def value? (sh : Session) (name : String) : Option String := (sh.declared? name).bind (·.value)

/-- Changes a variable, which is declared if need be. -/
def change (sh : Session) (name : String) (f : Variable → Variable) : Session :=
  if (sh.declared? name).isSome then
    { sh with vars := sh.vars.map fun v => if v.name = name then f v else v }
  else { sh with vars := sh.vars ++ [f { name, value := none }] }

/-- Sets a variable. -/
def set (sh : Session) (name value : String) : Session :=
  let sh := if name = "OPTIND" then
      { sh with optionIndex := max 1 (value.toNat?.getD 1), optionPlace := 0 }
    else sh
  let sh := if name = "PATH" then { sh with found := [] } else sh
  sh.change name fun v => { v with value := some value, exported := v.exported || sh.has 'a' }

/-- Lets programs be given a variable. -/
def markExported (sh : Session) (name : String) : Session :=
  sh.change name fun v => { v with exported := true }

/-- Sets a variable for programs. -/
def setExported (sh : Session) (name value : String) : Session :=
  (sh.set name value).markExported name

/-- Forgets a variable. -/
def unset (sh : Session) (name : String) : Session :=
  { sh with vars := sh.vars.filter (·.name ≠ name) }

/-- Makes a variable what it was. -/
def restore (sh : Session) (name : String) (before : Option Variable) : Session :=
  match before with
  | some v => sh.change name fun _ => v
  | none => sh.unset name

/-- Whether a variable keeps its value for ever. -/
def isConstant (sh : Session) (name : String) : Bool := (sh.declared? name).any (·.constant)

/-- Where a variable stands among the others: the first letter counts sixteenfold, then every
letter once, and there are 39 places. -/
def rank (name : String) : Nat :=
  (name.toList.foldl (fun sum c => sum + c.toNat) ((name.toList.headD '\x00').toNat * 16)) % 39

/-- The variables that a program is given, by their places. -/
def exports (sh : Session) : Variables :=
  let all := sh.vars.filterMap fun v => if v.exported then v.value.map (v.name, ·) else none
  (List.range 39).flatMap fun place => all.filter fun (name, _) => rank name = place

/-- The shell in a child: what was to be run on signals is forgotten, and no child is its own. -/
def inChild (sh : Session) : Session :=
  { sh with traps := sh.traps.filter (·.2.isEmpty), jobs := [], ended := [] }

/-- Whether anything is to be run on a signal or at the end. -/
def hasTraps (sh : Session) : Bool := sh.traps.any fun trap => !trap.2.isEmpty

/-- The characters that separate fields. -/
def fieldSeparators (sh : Session) : List Char := ((sh.value? "IFS").getD " \t\n").toList

/-- The letters of the options in the order in which they are shown. -/
def optionLetters : List Char := "efIimnsxvVECabup".toList

/-- The value of a parameter. -/
def parameter (sh : Session) (name : String) : Option String :=
  match name with
  | "?" => some (toString sh.status)
  | "$" => some (toString sh.pid)
  | "!" => sh.lastStarted.map toString
  | "#" => some (toString sh.args.length)
  | "-" => some (String.ofList (optionLetters.filter sh.has))
  | "0" => some sh.name
  | "@" => if sh.args.isEmpty then none else some (" ".intercalate sh.args)
  | "*" =>
    let separator := match sh.value? "IFS" with
      | some ifs => String.ofList (ifs.toList.take 1)
      | none => " "
    if sh.args.isEmpty then none else some (separator.intercalate sh.args)
  | name =>
    match name.toNat? with
    | some n => if n = 0 then some sh.name else sh.args[n - 1]?
    | none => sh.value? name

/-- Complains. -/
def complain (sh : Session) (text : String) : Routine Unit :=
  let command := match sh.command with
    | some command => command ++ ": "
    | none => ""
  say 2 (sh.name ++ ": " ++ toString sh.line ++ ": " ++ command ++ text ++ "\n")

/-- Complains, and leaves the shell. -/
def abort (sh : Session) (text : String) : Routine Session := do
  sh.complain text
  return { sh with status := 2, leaving := some .abort }

/-- The variables that the shell gives itself. -/
def ownVariables : List (String × String) :=
  [("IFS", " \t\n"), ("OPTIND", "1"), ("PS1", "# "), ("PS2", "> "), ("PS4", "+ ")]

/-- A variable of the process becomes one of the shell, in the place of an older one of that name. -/
def adopt (sh : Session) (name value : String) : Session :=
  sh.change name fun v => { v with value := some value, exported := true }

/-- A new shell: its variables are those of the process whose names are names. -/
def start (name : String) (args : List String) (options : List Char) (vars : Variables) :
    Routine Session := do
  let known := vars.filter fun entry => isName entry.1
  let sh : Session := { name, args, options, pid := ← ask .pid }
  let sh := (known.filter (·.1 = "PATH") ++ known.filter (·.1 ≠ "PATH")).foldl
    (fun sh (name, value) => sh.adopt name value) sh
  let sh := if (sh.value? "PATH").isSome then sh
    else sh.set "PATH" "/usr/local/sbin:/usr/local/bin:/usr/sbin:/usr/bin:/sbin:/bin"
  let sh := ownVariables.foldl (fun sh (name, value) =>
    if name.startsWith "PS" && (sh.value? name).isSome then sh else sh.set name value) sh
  let sh := sh.set "PPID" (toString (← ask .parent))
  return sh.setExported "PWD" (← ask .currentDirectory)

end Session

end Chaperone.Machine.Shell
