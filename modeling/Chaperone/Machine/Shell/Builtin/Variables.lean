import Chaperone.Machine.Shell.Builtin.Options

/-!
# Commands on variables

They set, declare and forget variables.  A variable that keeps its value for ever cannot be set or
forgotten.
-/

namespace Chaperone.Machine.Shell.Builtin

open Routine

/-- A word that sets a variable, in two parts. -/
def settingIn (text : String) : Option (String × String) :=
  let name := text.toList.takeWhile (· != '=')
  match text.toList.drop name.length with
  | '=' :: value => some (String.ofList name, String.ofList value)
  | _ => none

/-- Why a variable cannot be set or forgotten. -/
def obstacleTo (sh : Session) (name : String) : Option String :=
  if !isName name then some (name ++ ": bad variable name")
  else if sh.isConstant name then some (name ++ ": is read only")
  else none

/-- Declares variables, some of them with a value. -/
def declare (mark : Session → String → Session) (sh : Session) : List String → Routine Session
  | [] => return sh.withStatus 0
  | arg :: rest => do
    match settingIn arg with
    | some (name, value) =>
      match obstacleTo sh name with
      | some text => sh.abort text
      | none => declare mark (mark (sh.set name value) name) rest
    | none =>
      if (sh.declared? arg).isSome then declare mark (mark sh arg) rest
      else if isName arg then declare mark (mark sh arg) rest
      else sh.abort (arg ++ ": bad variable name")

def exportVariables : Builtin := fun sh args =>
  withOptions "p" sh args fun found names =>
    if found.isEmpty && !names.isEmpty then declare Session.markExported sh names
    else print sh (variableLines "export" (sh.vars.filter (·.exported))) 0

/-- Lets a variable keep its value for ever. -/
def markConstant (sh : Session) (name : String) : Session :=
  sh.change name fun v => { v with constant := true }

def readonlyVariables : Builtin := fun sh args =>
  withOptions "p" sh args fun found names =>
    if found.isEmpty && !names.isEmpty then declare markConstant sh names
    else print sh (variableLines "readonly" (sh.vars.filter (·.constant))) 0

/-- Makes variables a function's own: they become what they were when it ends.  Under the name `-`
the options do. -/
def makeOwn (sh : Session) : List String → Routine Session
  | [] => return sh.withStatus 0
  | "-" :: rest =>
    let options : Variable := { name := "-", value := some (String.ofList sh.options) }
    makeOwn { sh with locals := ("-", some options) :: sh.locals } rest
  | arg :: rest => do
    let (name, value) := match settingIn arg with
      | some (name, value) => (name, some value)
      | none => (arg, none)
    let kept := { sh with locals := (name, sh.declared? name) :: sh.locals }
    match value with
    | some value =>
      match obstacleTo sh name with
      | some text => sh.abort text
      | none => makeOwn (kept.set name value) rest
    | none => if isName name then makeOwn kept rest else sh.abort (name ++ ": bad variable name")

/-- Gives variables back what they were. -/
def giveBack (sh : Session) (saved : List (String × Option Variable)) : Session :=
  saved.foldl (fun sh (name, before) =>
    if name = "-" then { sh with options := ((before.bind (·.value)).getD "").toList }
    else sh.restore name before) sh

def localVariables : Builtin := fun sh args =>
  withOptions "" sh args fun _ names =>
    if !sh.inFunction then sh.abort "not in a function" else makeOwn sh names

/-- Forgets variables. -/
def forget (sh : Session) : List String → Routine Session
  | [] => return sh.withStatus 0
  | name :: rest => do
    match obstacleTo sh name with
    | some text => sh.abort text
    | none => forget (sh.unset name) rest

def unset : Builtin := fun sh args =>
  withOptions "vf" sh args fun found names =>
    if (found.getLast?.map (·.1)) = some 'f' then
      return { sh with
        functions := sh.functions.filter fun entry => !names.contains entry.1, status := 0 }
    else forget sh names

/-! ## Reading a line -/

/-- Reads a line byte by byte.  Gives its characters, with whether a backslash stood before each,
last one first, and whether the line was complete. -/
def readLine (raw : Bool) : Nat → List (Char × Bool) → Routine (List (Char × Bool) × Bool)
  | 0, done => return (done, false)
  | fuel + 1, done => do
    match ← ask (.read 0 1) with
    | .ok [b] =>
      let c := Char.ofNat b.toNat
      if c == '\n' then return (done, true)
      else if c == '\x00' then readLine raw fuel done
      else if c == '\\' && !raw then
        match ← ask (.read 0 1) with
        | .ok [b] =>
          if b = 10 then readLine raw fuel done
          else readLine raw fuel ((Char.ofNat b.toNat, true) :: done)
        | _ => return (done, false)
      else readLine raw fuel ((c, false) :: done)
    | _ => return (done, false)

/-- A line that is being divided into a number of fields. -/
structure Dividing where
  /-- How many more fields there may be. -/
  left : Nat
  /-- The complete fields, last one first. -/
  fields : List String := []
  /-- The characters of the next field, last one first. -/
  field : List Char := []
  /-- Whether the last separator was a blank. -/
  blank : Bool := false
  /-- How much of the last field counts, if the rest of it is separators. -/
  cut : Option Nat := none
  deriving Inhabited

/-- Takes a character of a line. -/
def Dividing.take (separators : List Char) (d : Dividing) (c : Char) (literal : Bool) : Dividing :=
  let separates := !literal && separators.contains c
  let blank := separates && (c == ' ' || c == '\t' || c == '\n')
  if d.left = 0 then
    if blank then { d with field := c :: d.field, cut := d.cut.or (some d.field.length) }
    else { d with
      field := c :: d.field
      cut := if separates && d.blank then d.cut else none
      blank := false }
  else if d.blank && blank then d
  else if d.blank && separates then { d with blank := false }
  else if !separates then { d with field := c :: d.field, blank := false }
  else if d.field.isEmpty && blank then d
  else if d.left = 1 then
    { d with left := 0, field := c :: d.field, cut := some d.field.length, blank }
  else
    { d with
      left := d.left - 1, fields := String.ofList d.field.reverse :: d.fields, field := [], blank }

/-- The fields of a line, at most so many.  The last one takes the rest of the line, without the
separators at its end that would end it. -/
def divide (separators : List Char) (count : Nat) (line : List (Char × Bool)) : List String :=
  let d := line.foldl (fun d (c, literal) => d.take separators c literal)
    { left := count : Dividing }
  let last := d.field.reverse.take (d.cut.getD d.field.length)
  (if last.isEmpty then d.fields else String.ofList last :: d.fields).reverse

/-- Sets variables to fields, and those that are left to nothing. -/
def setFields (sh : Session) : List String → List String → Routine Session
  | [], _ => return sh
  | name :: names, fields => do
    match obstacleTo sh name with
    | some text => sh.abort text
    | none => setFields (sh.set name (fields.headD "")) names fields.tail

def read : Builtin := fun sh args =>
  withOptions "p:r" sh args fun found names => do
    if names.isEmpty then sh.abort "arg count"
    else
      let raw := found.any (·.1 == 'r')
      let (line, complete) ← readLine raw rounds []
      setFields (sh.withStatus (if complete then 0 else 1)) names
        (divide sh.fieldSeparators names.length line.reverse)

end Chaperone.Machine.Shell.Builtin
