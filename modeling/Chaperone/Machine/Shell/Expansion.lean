import Chaperone.Machine.Shell.Arithmetic
import Chaperone.Machine.Shell.Pattern
import Chaperone.Machine.Shell.State

/-!
# Expansion

What the words of a command stand for.  Values that are not quoted are split into fields, and a
field that is a pattern stands for the names of files that match it, if there are any.
-/

namespace Chaperone.Machine.Shell

open Routine

/-- A part of what a word stands for. -/
inductive Part where
  /-- A text that is neither split nor a pattern. -/
  | fixed (text : String)
  /-- A text that is not split but may be a pattern. -/
  | plain (text : String)
  /-- A text that is split and may be a pattern. -/
  | loose (text : String)
  /-- A field ends here. -/
  | divide
  deriving DecidableEq, Repr, Inhabited

/-- The text of parts that are not split. -/
def joined (parts : List Part) : String :=
  String.join (parts.map fun
    | .fixed text | .plain text | .loose text => text
    | .divide => " ")

/-- The pattern that parts make. -/
def patternOf (parts : List Part) : List Glyph :=
  parts.flatMap fun
    | .fixed text => glyphs text true
    | .plain text | .loose text => glyphs text false
    | .divide => [(' ', false)]

/-! ## Fields -/

/-- Fields that are being split. -/
structure Splitting where
  /-- The complete fields, last one first. -/
  fields : List (List Glyph) := []
  /-- What stands in the next field, last character first, if it has begun. -/
  field : Option (List Glyph) := none
  /-- Whether blanks ended the field before, to which one other separator may belong. -/
  blankEnd : Bool := false
  deriving Inhabited

namespace Splitting

/-- Ends the field that has begun. -/
def close (s : Splitting) : Splitting :=
  match s.field with
  | some field => { fields := field.reverse :: s.fields }
  | none => { s with blankEnd := false }

/-- Adds characters to the field. -/
def add (s : Splitting) (more : List Glyph) : Splitting :=
  { s with field := some (more.reverse ++ s.field.getD []), blankEnd := false }

/-- Takes one character of a text that is split. -/
def take (separators : List Char) (s : Splitting) (c : Char) : Splitting :=
  if !separators.contains c then s.add [(c, false)]
  else if c == ' ' || c == '\t' || c == '\n' then
    match s.field with
    | some _ => { s.close with blankEnd := true }
    | none => s
  else if s.field.isNone && s.blankEnd then { s with blankEnd := false }
  else (s.add []).close

/-- The fields that parts make. -/
def run (separators : List Char) (parts : List Part) : List (List Glyph) :=
  let s := parts.foldl (fun s part =>
    match part with
    | .fixed text => s.add (glyphs text true)
    | .plain text => if text.isEmpty then s else s.add (glyphs text false)
    | .loose text => text.toList.foldl (take separators) s
    | .divide => s.close) ({} : Splitting)
  s.close.fields.reverse

end Splitting

/-! ## Names of files -/

/-- The names in a path that is a pattern, each with the slashes behind it. -/
def pathParts (fuel : Nat) (text : List Glyph) : List (List Glyph × String) :=
  match fuel, text with
  | 0, _ | _, [] => []
  | fuel + 1, text =>
    let name := text.takeWhile (·.1 != '/')
    let slashes := (text.drop name.length).takeWhile (·.1 == '/')
    (name, String.ofList (slashes.map (·.1))) ::
      pathParts fuel (text.drop (name.length + slashes.length))

/-- The names of files that match, behind a path. -/
def matchingFiles (base : String) : List (List Glyph × String) → Routine (List String)
  | [] => do
    match ← ask (.look base) with
    | .ok _ => return [base]
    | .error _ => return []
  | (name, slashes) :: rest => do
    if Pattern.isActive name then
      match ← ask (.list (if base.isEmpty then "." else base)) with
      | .error _ => return []
      | .ok names =>
        let pattern := Pattern.ofGlyphs name
        let hidden := (name.head?.map (·.1)) = some '.'
        let found := ("." :: ".." :: names).filter fun n =>
          (hidden || !n.startsWith ".") && Pattern.matches? pattern n.toList
        let rec each : List String → Routine (List String)
          | [] => return []
          | n :: more => do
            let first ← if rest.isEmpty && slashes.isEmpty then pure [base ++ n]
              else matchingFiles (base ++ n ++ slashes) rest
            return first ++ (← each more)
        each found
    else matchingFiles (base ++ String.ofList (name.map (·.1)) ++ slashes) rest

/-- What a field stands for. -/
def fileNames (field : List Glyph) : Routine (List String) := do
  let plain := String.ofList (field.map (·.1))
  if !Pattern.isActive field then return [plain]
  else
    match ← matchingFiles "" (pathParts (field.length + 1) field) with
    | [] => return [plain]
    | names => return names.mergeSort fun a b => a ≤ b

/-! ## Words -/

/-- What expansion needs of the rest of the shell. -/
structure Helpers where
  /-- Finds the output of a command. -/
  output : Command → Session → Routine (Session × String)
  /-- Ends the shell. -/
  fail : Session → Task

/-- Complains and ends the shell. -/
def Helpers.abort {α : Type} (h : Helpers) (sh : Session) (text : String) : Routine α := do
  sh.complain text
  fun _ => h.fail (sh.withStatus 2)

/-- A text without the newlines at its end. -/
def chomp (text : String) : String :=
  String.ofList (text.toList.reverse.dropWhile (· == '\n')).reverse

/-- A part with the text of a value. -/
def part (quoted : Bool) (text : String) : Part := if quoted then .fixed text else .loose text

/-- The parts of a parameter with a value. -/
def parameterParts (sh : Session) (name value : String) (quoted : Bool) : List Part :=
  if name = "@" || (name = "*" && !quoted) then
    (sh.args.map (part quoted)).intersperse .divide
  else [part quoted value]

/-- The parts of a text that stands for a parameter without a value: without quotes it is split, and
in quotes it is there even if it is empty. -/
def substitutes (quoted : Bool) (parts : List Part) : List Part :=
  if quoted then (if parts.isEmpty then [.fixed ""] else parts)
  else parts.map fun
    | .plain text => .loose text
    | part => part

/-- Sets variables to numbers, the last of them first. -/
def setNumbers (sh : Session) (assigned : List (String × Int)) : Session :=
  assigned.reverse.foldl (fun sh (name, n) => sh.set name (toString n)) sh

mutual

/-- What a piece stands for. -/
def expandPiece (h : Helpers) (sh : Session) : Piece → Routine (Session × List Part)
  | .text text quoted => return (sh, [if quoted then .fixed text else .plain text])
  | .output command quoted => do
    let (sh, text) ← h.output command sh
    return (sh, [part quoted (chomp text)])
  | .arithmetic expression quoted => do
    let (sh, parts) ← expandPieces h sh expression
    let text := joined parts
    match Arithmetic.evaluate (fun name => (sh.parameter name).getD "") text with
    | .ok (n, assigned) =>
      match assigned.find? fun (name, _) => sh.isConstant name with
      | some (name, _) => h.abort sh (name ++ ": is read only")
      | none => return (setNumbers sh assigned, [part quoted (toString n)])
    | .error reason =>
      h.abort sh (if reason.startsWith "Illegal" then reason
        else "arithmetic expression: " ++ reason ++ ": \"" ++ text ++ "\"")
  | .parameter name use other quoted => do
    let value := sh.parameter name
    let has (emptyToo : Bool) : Bool := match value with
      | none => false
      | some value => !(emptyToo && value.isEmpty)
    let own := match value with
      | some value => parameterParts sh name value quoted
      | none => if quoted && name ≠ "@" then [.fixed ""] else []
    let missing : Bool := value.isNone && sh.has 'u' && name ≠ "@" && name ≠ "*"
    match use with
    | .unknown => h.abort sh "Bad substitution"
    | .value =>
      if missing then h.abort sh (name ++ ": parameter not set") else return (sh, own)
    | .length =>
      if missing then h.abort sh (name ++ ": parameter not set")
      else
        return (sh, [part quoted (toString (value.getD "").length)])
    | .orElse emptyToo =>
      if has emptyToo then return (sh, own)
      else do
        let (sh, parts) ← expandPieces h sh other
        return (sh, substitutes quoted parts)
    | .instead emptyToo =>
      if has emptyToo then do
        let (sh, parts) ← expandPieces h sh other
        return (sh, substitutes quoted parts)
      else return (sh, if quoted then [.fixed ""] else [])
    | .assign emptyToo =>
      if has emptyToo then return (sh, own)
      else do
        let (sh, parts) ← expandPieces h sh other
        if !isName name then h.abort sh (name ++ ": bad variable name")
        else if sh.isConstant name then h.abort sh (name ++ ": is read only")
        else return (sh.set name (joined parts), [part quoted (joined parts)])
    | .require emptyToo =>
      if has emptyToo then return (sh, own)
      else do
        let (sh, parts) ← expandPieces h sh other
        let reason := if parts.isEmpty then
            (if emptyToo then "parameter not set or null" else "parameter not set")
          else joined parts
        h.abort sh (name ++ ": " ++ reason)
    | .without atEnd longest =>
      if missing then h.abort sh (name ++ ": parameter not set")
      else do
        let (sh, parts) ← expandPieces h sh other
        let pattern := Pattern.ofGlyphs (patternOf parts)
        let cut (text : String) : String :=
          String.ofList (Pattern.strip atEnd longest pattern text.toList)
        if name = "@" || name = "*" then
          let args := if atEnd then sh.args.dropLast ++ sh.args.getLast?.toList.map cut
            else (sh.args.take 1).map cut ++ sh.args.drop 1
          let cutting := { sh with args }
          return (sh, parameterParts cutting name ((cutting.parameter name).getD "") quoted)
        else return (sh, [part quoted (cut (value.getD ""))])

/-- What the pieces of a word stand for. -/
def expandPieces (h : Helpers) (sh : Session) : List Piece → Routine (Session × List Part)
  | [] => return (sh, [])
  | piece :: rest => do
    let (sh, first) ← expandPiece h sh piece
    let (sh, others) ← expandPieces h sh rest
    return (sh, first ++ others)

end

/-! ## Home directories -/

/-- The home directory of a user, or of the one whose shell it is. -/
def home? (sh : Session) (user : String) : Option String :=
  if user.isEmpty then sh.value? "HOME" else if user = "root" then some "/root" else none

/-- A text that begins with a tilde, with the home directory in its place. -/
def replaceTilde (sh : Session) (text : String) : Option Word :=
  match text.toList with
  | '~' :: rest =>
    let user := rest.takeWhile (· != '/')
    (home? sh (String.ofList user)).map fun home =>
      [.text home true, .text (String.ofList (rest.drop user.length)) false]
  | _ => none

/-- A word with the home directory in place of a tilde at its beginning. -/
def withHome (sh : Session) (word : Word) : Word :=
  match word with
  | .text text false :: rest =>
    if rest.isEmpty || text.contains '/' then
      match replaceTilde sh text with
      | some pieces => pieces ++ rest
      | none => word
    else word
  | word => word

/-- A value with the home directory in place of a tilde at its beginning or behind a colon. -/
def withHomes (sh : Session) (word : Word) : Word :=
  match word with
  | .text text false :: rest =>
    let fields := text.splitOn ":"
    let last := fields.length - 1
    let pieces := (fields.zipIdx).map fun (field, i) =>
      if i < last || rest.isEmpty || field.contains '/' then
        (replaceTilde sh field).getD [.text field false]
      else [.text field false]
    (pieces.intersperse [.text ":" false]).flatten ++ rest
  | word => word

/-! ## Words -/

/-- The fields of words. -/
def expandWords (h : Helpers) (sh : Session) : List Word → Routine (Session × List String)
  | [] => return (sh, [])
  | word :: rest => do
    let (sh, parts) ← expandPieces h sh (withHome sh word)
    let fields := Splitting.run sh.fieldSeparators parts
    let names ← if sh.has 'f' then pure (fields.map fun field => String.ofList (field.map (·.1)))
      else each fields
    let (sh, others) ← expandWords h sh rest
    return (sh, names ++ others)
where
  /-- What some fields stand for. -/
  each : List (List Glyph) → Routine (List String)
    | [] => return []
    | field :: more => do
      let first ← fileNames field
      return first ++ (← each more)

/-- The text of a word that is not split. -/
def expandText (h : Helpers) (sh : Session) (word : Word) : Routine (Session × String) := do
  let (sh, parts) ← expandPieces h sh word
  return (sh, joined parts)

/-- The pattern that a word makes. -/
def expandPattern (h : Helpers) (sh : Session) (word : Word) :
    Routine (Session × List Pattern.Atom) := do
  let (sh, parts) ← expandPieces h sh (withHome sh word)
  return (sh, Pattern.ofGlyphs (patternOf parts))

end Chaperone.Machine.Shell
