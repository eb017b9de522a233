import Chaperone.Machine.Shell.Builtin.Basic

/-!
# Options of the shell

They are given when the shell starts or with `set`, by letter or by name, and are turned on with a
minus sign and off with a plus sign.
-/

namespace Chaperone.Machine.Shell.Builtin

open Routine

/-- The names of the options and their letters.  Those without a letter do nothing. -/
def optionNames : List (String × Option Char) :=
  [ ("errexit", some 'e'), ("noglob", some 'f'), ("ignoreeof", some 'I'),
    ("interactive", some 'i'), ("monitor", some 'm'), ("noexec", some 'n'), ("stdin", some 's'),
    ("xtrace", some 'x'), ("verbose", some 'v'), ("vi", some 'V'), ("emacs", some 'E'),
    ("noclobber", some 'C'), ("allexport", some 'a'), ("notify", some 'b'),
    ("nounset", some 'u'), ("privileged", some 'p'), ("nolog", none), ("debug", none) ]

/-- What some options ask for. -/
structure Settled where
  /-- The letters of the options that are on. -/
  options : List Char
  /-- Whether commands are taken from an argument. -/
  fromText : Bool := false
  /-- The other arguments. -/
  rest : List String
  /-- Whether a mark stands between the options and the other arguments. -/
  marked : Bool := false

/-- Turns an option on or off. -/
def Settled.turn (s : Settled) (letter : Char) (on : Bool) : Settled :=
  let others := s.options.filter (· != letter)
  { s with options := if on then letter :: others else others }

/-- What `set` shows about an option. -/
def settingLine (options : List Char) (on : Bool) (name : String) (letter : Option Char) : String :=
  let isOn := letter.any options.contains
  if on then
    name ++ String.ofList (List.replicate (16 - name.length) ' ') ++
      (if isOn then "on\n" else "off\n")
  else "set " ++ (if isOn then "-o " else "+o ") ++ name ++ "\n"

/-- The letters of one argument.  With `own` they are for a shell that starts. -/
def takeLetters (own on : Bool) (s : Settled) : List Char → Routine (Except String Settled)
  | [] => return .ok s
  | c :: letters => do
    let illegal : Except String Settled := .error ("Illegal option -" ++ String.singleton c)
    if c == 'c' && own then takeLetters own on { s with fromText := true } letters
    else if c == 'l' && own then takeLetters own on s letters
    else if c == 'o' then
      match s.rest with
      | [] =>
        say 1 ((if on then "Current option settings\n" else "") ++
          String.join (optionNames.map fun (name, letter) => settingLine s.options on name letter))
        takeLetters own on s letters
      | name :: rest =>
        let s := { s with rest }
        match optionNames.lookup name with
        | some (some letter) => takeLetters own on (s.turn letter on) letters
        | some none => takeLetters own on s letters
        | none => return .error ("Illegal option -o " ++ name)
    else if Session.optionLetters.contains c then takeLetters own on (s.turn c on) letters
    else return illegal

/-- The options before the other arguments.  The fuel is the number of arguments. -/
def takeOptions (fuel : Nat) (own : Bool) (s : Settled) : Routine (Except String Settled) :=
  match fuel with
  | 0 => return .ok s
  | fuel + 1 => do
    match s.rest with
    | [] => return .ok s
    | arg :: rest =>
      let further (on : Bool) (letters : List Char) : Routine (Except String Settled) := do
        match ← takeLetters own on { s with rest } letters with
        | .ok s => takeOptions fuel own s
        | .error text => return .error text
      match arg.toList with
      | ['-'] =>
        let s := { s with rest }
        return .ok (if own then s else (s.turn 'x' false).turn 'v' false)
      | ['-', '-'] => return .ok { s with rest, marked := true }
      | '-' :: letters => further true letters
      | '+' :: letters => further false letters
      | _ => return .ok s

/-- The options before the other arguments. -/
def settle (own : Bool) (options : List Char) (args : List String) :
    Routine (Except String Settled) :=
  takeOptions (args.length + 1) own { options, rest := args }

/-- The variables one on a line, with their values in quotes. -/
def variableLines (word : String) (vars : List Variable) : String :=
  String.join ((vars.mergeSort fun a b => a.name ≤ b.name).map fun v =>
    (if word.isEmpty then "" else word ++ " ") ++ v.name ++
      (match v.value with
        | some value => "=" ++ quoted value
        | none => "") ++ "\n")

def set : Builtin := fun sh args => do
  if args.isEmpty then print sh (variableLines "" (sh.vars.filter (·.value.isSome))) 0
  else
    match ← settle false sh.options args with
    | .error text => sh.abort text
    | .ok s =>
      let sh := { sh with options := s.options, status := 0 }
      if s.rest.isEmpty && !s.marked then return sh
      else return { sh with args := s.rest, optionIndex := 1, optionPlace := 0 }

def shift : Builtin := fun sh args => do
  match args with
  | [] => drop sh 1
  | text :: _ =>
    match number? text with
    | some n => drop sh n
    | none => sh.abort (illegalNumber text)
where
  /-- Takes away the first arguments. -/
  drop (sh : Session) (n : Nat) : Routine Session := do
    if sh.args.length < n then sh.abort "can't shift that many"
    else
      return { sh with args := sh.args.drop n, optionIndex := 1, optionPlace := 0, status := 0 }

/-! ## Options of scripts -/

/-- What `getopts` finds. -/
structure Found where
  /-- The option, or `?` if there is none. -/
  name : Char := '?'
  /-- The argument of the option; without one the variable is forgotten. -/
  value : Option String := none
  /-- Which argument is looked at next. -/
  index : Nat
  /-- The place in the argument before it. -/
  place : Nat := 0
  /-- Whether nothing was found because the options are over. -/
  finished : Bool := false
  complaint : Option String := none

/-- Looks for the option at the beginning of some letters, which end at `place` in the argument
before the one with the number `index`. -/
def found (known : List Char) (args : List String) (index : Nat) (argument : List Char)
    (place : Nat) : Found :=
  let letters := argument.drop place
  let quiet := known.head? = some ':'
  match letters with
  | [] => { index, finished := true }
  | c :: rest =>
    let next := if rest.isEmpty then 0 else place + 1
    match if c == ':' then [] else known.dropWhile (· != c) with
    | [] =>
      { index, place := next
        value := if quiet then some (String.singleton c) else none
        complaint := if quiet then none else some ("Illegal option -" ++ String.singleton c) }
    | _ :: ':' :: _ =>
      if !rest.isEmpty then { name := c, index, value := some (String.ofList rest) }
      else
        match args[index - 1]? with
        | some value => { name := c, index := index + 1, value := some value }
        | none =>
          if quiet then { name := ':', index, value := some (String.singleton c) }
          else { index, complaint := some ("No arg for -" ++ String.singleton c ++ " option") }
    | _ => { name := c, index, place := next, value := some "" }

/-- The next option among some arguments. -/
def nextOption (known : List Char) (args : List String) (index place : Nat) : Found :=
  let before := (args[index - 2]?.getD "").toList
  if 1 < index && 0 < place && place < before.length then found known args index before place
  else
    match (args[index - 1]?.getD "").toList with
    | ['-', '-'] => { index := index + 1, finished := true }
    | '-' :: c :: rest => found known args (index + 1) ('-' :: c :: rest) 1
    | _ => { index, finished := true }

def getopts : Builtin := fun sh args => do
  match args with
  | known :: name :: more =>
    let args := if more.isEmpty then sh.args else more
    let index := if args.length + 1 < sh.optionIndex then 1 else sh.optionIndex
    let place := if args.length + 1 < sh.optionIndex then 0 else sh.optionPlace
    let f := nextOption known.toList args index place
    match f.complaint with
    | some text => say 2 (text ++ "\n")
    | none => pure ()
    let sh := match f.value with
      | some value => sh.set "OPTARG" value
      | none => if f.finished then sh else sh.unset "OPTARG"
    let sh := sh.set "OPTIND" (toString f.index)
    if !isName name then sh.abort (name ++ ": bad variable name")
    else
      let sh := sh.set name (String.singleton f.name)
      return { sh with
        optionIndex := f.index, optionPlace := f.place, status := if f.finished then 1 else 0 }
  | _ => sh.abort "Usage: getopts optstring var [arg...]"

end Chaperone.Machine.Shell.Builtin
