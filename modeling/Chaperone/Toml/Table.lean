import Chaperone.Document.Datum

/-!
# Tables under construction

The lines of a TOML text add to tables from everywhere in the text, and which additions are allowed
depends on how a table came to be.  A table that is only on the way to another one may get a header
later; one that a dotted key made may be extended by dotted keys only, and by the headers of
tables inside it; one that has had its header is complete.
-/

namespace Chaperone.Toml

/-- How a table came to be. -/
inductive Origin where
  /-- By a header of its own. -/
  | header
  /-- On the way to a table with a header. -/
  | passage
  /-- By a dotted key. -/
  | dotted
  deriving DecidableEq, Repr

/-- What a name stands for in a table under construction. -/
inductive Node where
  /-- A value that is complete. -/
  | value (d : Datum)
  | table (origin : Origin) (members : List (String × Node))
  /-- Tables under one repeated header; the last one is under construction. -/
  | tables (done : List (List (String × Node))) (last : List (String × Node))
  deriving Inhabited

/-- Members in the order in which they were first named. -/
abbrev Members := List (String × Node)

mutual

/-- The value of a node. -/
def Node.toDatum : Node → Datum
  | .value d => d
  | .table _ members => .object (membersToDatum members)
  | .tables done last => .array (tablesToDatum done ++ [.object (membersToDatum last)])

/-- The values of members. -/
def membersToDatum : Members → List (String × Datum)
  | [] => []
  | (name, node) :: rest => (name, node.toDatum) :: membersToDatum rest

/-- The values of tables. -/
def tablesToDatum : List Members → List Datum
  | [] => []
  | members :: rest => .object (membersToDatum members) :: tablesToDatum rest

end

/-- Gives a name its node, in its place or at the end. -/
def put (name : String) (node : Node) : Members → Members
  | [] => [(name, node)]
  | (n, old) :: rest => if n = name then (n, node) :: rest else (n, old) :: put name node rest

/-- Changes the table that `path` leads to, and makes those on the way that do not exist.  With
`byKey` the path is that of a dotted key. -/
def descend (byKey : Bool) (change : Origin → Members → Option Members) :
    List String → Origin → Members → Option Members
  | [], origin, members => change origin members
  | name :: path, _, members =>
    let made : Origin := if byKey then .dotted else .passage
    match members.lookup name with
    | none =>
      (descend byKey change path made []).map fun inner =>
        members ++ [(name, .table made inner)]
    | some (.value _) => none
    | some (.table origin inner) =>
      if byKey && origin = .header then none
      else (descend byKey change path origin inner).map fun inner =>
        put name (.table origin inner) members
    | some (.tables done last) =>
      (descend byKey change path .header last).map fun last =>
        put name (.tables done last) members

/-- Gives a key its value.  A dotted key may only reach into tables that dotted keys made. -/
def assign (members : Members) (path : List String) (value : Datum) : Option Members :=
  match path.reverse with
  | [] => none
  | name :: reversed =>
    let way := reversed.reverse
    let change (origin : Origin) (inner : Members) : Option Members :=
      if !way.isEmpty && origin ≠ .dotted then none
      else if (inner.lookup name).isSome then none
      else some (inner ++ [(name, .value value)])
    descend true change way .header members

/-- Opens the table with this header. -/
def openTable (root : Members) (path : List String) : Option Members :=
  match path.reverse with
  | [] => none
  | name :: reversed =>
    let change (_ : Origin) (inner : Members) : Option Members :=
      match inner.lookup name with
      | none => some (inner ++ [(name, .table .header [])])
      | some (.table .passage members) =>
        some ((inner.filter (·.1 ≠ name)) ++ [(name, .table .header members)])
      | some _ => none
    descend false change reversed.reverse .header root

/-- Opens one more table under this repeated header. -/
def openNext (root : Members) (path : List String) : Option Members :=
  match path.reverse with
  | [] => none
  | name :: reversed =>
    let change (_ : Origin) (inner : Members) : Option Members :=
      match inner.lookup name with
      | none => some (inner ++ [(name, .tables [] [])])
      | some (.tables done last) => some (put name (.tables (done ++ [last]) []) inner)
      | some _ => none
    descend false change reversed.reverse .header root

/-- Gives a key its value in the table that was opened last. -/
def assignIn (root : Members) (header path : List String) (value : Datum) : Option Members :=
  descend false (fun _ inner => assign inner path value) header .header root

end Chaperone.Toml
