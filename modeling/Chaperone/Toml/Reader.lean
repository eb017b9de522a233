import Chaperone.Toml.Scalar
import Chaperone.Toml.Table

/-!
# Reading TOML

`read` accepts the texts of TOML 1.0, with two limits: containers, and the parts of a key, nest
less than 80 deep.
-/

namespace Chaperone.Toml

/-- How deep containers and keys may nest. -/
def maxDepth : Nat := 79

mutual

/-- A value. -/
def value (fuel depth : Nat) (text : List Char) : Option (Datum × List Char) :=
  match fuel with
  | 0 => none
  | fuel + 1 =>
    match text with
    | '"' :: _ | '\'' :: _ => (string? text).map fun (s, rest) => (.string s, rest)
    | '[' :: rest =>
      if depth = 0 then none
      else (items fuel (depth - 1) rest).map fun (items, rest) => (.array items, rest)
    | '{' :: rest =>
      if depth = 0 then none
      else
        match skipBlanks rest with
        | '}' :: rest => some (.object [], rest)
        | _ =>
          (pairs fuel (depth - 1) [] rest).map fun (members, rest) =>
            (.object (membersToDatum members), rest)
    | text => scalar text

/-- The values of an array up to its bracket.  A comma may follow the last one. -/
def items (fuel depth : Nat) (text : List Char) : Option (List Datum × List Char) :=
  match fuel with
  | 0 => none
  | fuel + 1 => do
    match ← skipLines (text.length + 1) text with
    | ']' :: rest => return ([], rest)
    | text =>
      let (item, rest) ← value fuel depth text
      match ← skipLines (rest.length + 1) rest with
      | ']' :: rest => return ([item], rest)
      | ',' :: rest =>
        let (more, rest) ← items fuel depth rest
        return (item :: more, rest)
      | _ => none

/-- The members of a table on one line up to its brace. -/
def pairs (fuel depth : Nat) (members : Members) (text : List Char) :
    Option (Members × List Char) :=
  match fuel with
  | 0 => none
  | fuel + 1 => do
    let (path, rest) ← key maxDepth text
    let rest ← exactly '=' rest
    let (v, rest) ← value fuel depth (skipBlanks rest)
    let members ← assign members path v
    match skipBlanks rest with
    | '}' :: rest => return (members, rest)
    | ',' :: rest => pairs fuel depth members rest
    | _ => none

end

/-- The text of the next line, if nothing but a comment is left on this one. -/
def endLine (text : List Char) : Option (List Char) :=
  match skipComment (skipBlanks text) with
  | [] => some []
  | rest => newline? rest

/-- Takes the lines of a text one after the other. -/
def readLines (fuel : Nat) (root : Members) (header : List String) (text : List Char) :
    Option Members :=
  match fuel with
  | 0 => none
  | fuel + 1 =>
    match skipBlanks text with
    | [] => some root
    | '[' :: '[' :: rest => do
      let (path, rest) ← key maxDepth rest
      let rest ← exactly ']' (← exactly ']' rest)
      readLines fuel (← openNext root path) path (← endLine rest)
    | '[' :: rest => do
      let (path, rest) ← key maxDepth rest
      readLines fuel (← openTable root path) path (← endLine (← exactly ']' rest))
    | '#' :: rest => do readLines fuel root header (← endLine ('#' :: rest))
    | text =>
      match newline? text with
      | some rest => readLines fuel root header rest
      | none => do
        let (path, rest) ← key maxDepth text
        let rest ← exactly '=' rest
        let (v, rest) ← value (text.length + 1) maxDepth (skipBlanks rest)
        readLines fuel (← assignIn root header path v) header (← endLine rest)

/-- The table that a text writes, if it is TOML. -/
def read (text : String) : Option Datum :=
  let chars := match text.toList with
    | '\uFEFF' :: rest => rest
    | chars => chars
  (readLines (chars.length + 2) [] [] chars).map fun root => .object (membersToDatum root)

end Chaperone.Toml
