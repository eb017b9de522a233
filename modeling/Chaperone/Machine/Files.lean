import Chaperone.Failure.System

/-!
# Files

The tree of files is a list of absolute paths with what stands there.  Looking up a name follows
symbolic links, up to 40 of them.
-/

namespace Chaperone.Machine

/-- The names on the way from the root. -/
abbrev Place := List String

/-- What stands at a place. -/
inductive Node where
  | directory
  | file (mode : Nat) (content : List UInt8)
  | link (target : String)
  /-- The device that is empty and takes everything. -/
  | null
  /-- The device that gives zeros without end. -/
  | zero
  /-- The binary of a tool of the system. -/
  | tool (name : String)
  deriving Repr, Inhabited

/-- The tree of files. -/
structure Files where
  nodes : List (Place × Node) := []
  deriving Repr, Inhabited

namespace Files

/-- What stands at a place. -/
def at? (files : Files) (place : Place) : Option Node :=
  match place with
  | [] => some .directory
  | place => files.nodes.lookup place

/-- Puts something at a place. -/
def put (files : Files) (place : Place) (node : Node) : Files :=
  ⟨(place, node) :: files.nodes.filter fun entry => entry.1 ≠ place⟩

/-- Takes away what stands at a place. -/
def remove (files : Files) (place : Place) : Files :=
  ⟨files.nodes.filter fun entry => entry.1 ≠ place⟩

/-- Makes a directory and those on the way to it. -/
def makeDirectory (files : Files) (place : Place) : Files :=
  (List.range place.length).foldl (fun files i =>
    let place := place.take (i + 1)
    match files.at? place with
    | some _ => files
    | none => files.put place .directory) files

/-- The names in a directory, in order. -/
def names (files : Files) (place : Place) : List String :=
  let inside := files.nodes.filterMap fun (p, _) =>
    if p.length = place.length + 1 && p.take place.length = place then p.getLast? else none
  inside.mergeSort fun a b => a ≤ b

/-- The names in a path; a double slash counts once. -/
def split (path : String) : List String := (path.splitOn "/").filter (· ≠ "")

/-- The names in the target of a link.  A slash at the end asks for a directory, as one more name
for it does. -/
def splitTarget (target : String) : List String :=
  split target ++ if target.endsWith "/" then ["."] else []

/-- How long a path may be. -/
def maxPath : Nat := 4095

/-- How long a name may be. -/
def maxName : Nat := 255

/-- How many links may be followed. -/
def maxLinks : Nat := 40

/-- Goes down from a place, following up to `links` links.  With `follow`, a link at the end is
followed too. -/
def walk (files : Files) (follow : Bool) : Nat → Nat → Place → List String → Except Errno Place
  | 0, _, _, _ => .error Errno.linkLoop
  | fuel + 1, links, place, names =>
    match names with
    | [] => .ok place
    | name :: rest =>
      match files.at? place with
      | some .directory =>
        if name = "." then walk files follow fuel links place rest
        else if name = ".." then walk files follow fuel links place.dropLast rest
        else if maxName < name.length then .error Errno.nameTooLong
        else
          let next := place ++ [name]
          match files.at? next with
          | some (.link target) =>
            if rest.isEmpty && !follow then .ok next
            else if target.isEmpty then .error Errno.noEntry
            else if links = 0 then .error Errno.linkLoop
            else
              walk files follow fuel (links - 1) (if target.startsWith "/" then [] else place)
                (splitTarget target ++ rest)
          | some _ => walk files follow fuel links next rest
          | none => if rest.isEmpty then .ok next else .error Errno.noEntry
      | some _ => .error Errno.notDirectory
      | none => .error Errno.noEntry

/-- The place that a path leads to from a directory; nothing need stand there. -/
def locate (files : Files) (follow : Bool) (from_ : Place) (path : String) : Except Errno Place :=
  if path.isEmpty || path.contains '\x00' then .error Errno.noEntry
  else if maxPath < path.length then .error Errno.nameTooLong
  else
    let start := if path.startsWith "/" then [] else from_
    -- no path and none of the links adds more than `maxPath` names
    match files.walk (follow || path.endsWith "/") ((maxLinks + 1) * (maxPath + 1)) maxLinks start
      (split path) with
    | .error errno => .error errno
    | .ok place =>
      if path.endsWith "/" || path.endsWith "/." then
        match files.at? place with
        | some .directory | none => .ok place
        | some _ => .error Errno.notDirectory
      else .ok place

/-- What a path leads to. -/
def find (files : Files) (from_ : Place) (path : String) : Except Errno (Place × Node) :=
  match files.locate true from_ path with
  | .error errno => .error errno
  | .ok place =>
    match files.at? place with
    | some node => .ok (place, node)
    | none => .error Errno.noEntry

/-! ## Changes -/

/-- Puts something new where a path leads. -/
def addNode (files : Files) (from_ : Place) (path : String) (node : Node) : Except Errno Files :=
  match files.locate false from_ path with
  | .error errno => .error errno
  | .ok place =>
    match files.at? place, files.at? place.dropLast with
    | some _, _ => .error Errno.fileExists
    | none, some .directory => .ok (files.put place node)
    | none, some _ => .error Errno.notDirectory
    | none, none => .error Errno.noEntry

/-- Gives a file other permissions. -/
def setMode (files : Files) (from_ : Place) (path : String) (mode : Nat) : Except Errno Files :=
  match files.find from_ path with
  | .error errno => .error errno
  | .ok (place, .file _ content) => .ok (files.put place (.file mode content))
  | .ok _ => .ok files

/-- Takes away what a path leads to, unless it is a directory. -/
def unlink (files : Files) (from_ : Place) (path : String) : Except Errno Files :=
  match files.locate false from_ path with
  | .error errno => .error errno
  | .ok place =>
    match files.at? place with
    | none => .error Errno.noEntry
    | some .directory => .error Errno.isDirectory
    | some _ => .ok (files.remove place)

/-- Takes away an empty directory. -/
def removeDirectory (files : Files) (from_ : Place) (path : String) : Except Errno Files :=
  match files.locate false from_ path with
  | .error errno => .error errno
  | .ok place =>
    match files.at? place with
    | none => .error Errno.noEntry
    | some .directory =>
      if (files.names place).isEmpty then .ok (files.remove place) else .error Errno.notEmpty
    | some _ => .error Errno.notDirectory

/-- Moves what stands at a place, and all that is in it. -/
def move (files : Files) (place newPlace : Place) : Files :=
  let others := files.nodes.filter fun entry => entry.1 ≠ newPlace
  ⟨others.map fun (p, node) =>
    if p.take place.length = place then (newPlace ++ p.drop place.length, node) else (p, node)⟩

/-- Gives another path to what a path leads to. -/
def rename (files : Files) (from_ : Place) (path newPath : String) : Except Errno Files :=
  match files.locate false from_ path, files.locate false from_ newPath with
  | .error errno, _ | _, .error errno => .error errno
  | .ok place, .ok newPlace =>
    match files.at? place, files.at? newPlace with
    | none, _ => .error Errno.noEntry
    | some .directory, some .directory =>
      if (files.names newPlace).isEmpty then .ok (files.move place newPlace)
      else .error Errno.notEmpty
    | some .directory, some _ => .error Errno.notDirectory
    | some _, some .directory => .error Errno.isDirectory
    | some _, _ => .ok (files.move place newPlace)

/-- The path of a place. -/
def path (place : Place) : String := "/" ++ "/".intercalate place

end Files

namespace Node

/-- Whether it is a file that somebody may execute. -/
def isExecutable : Node → Bool
  | .file mode _ => mode &&& 0o111 ≠ 0
  | .tool _ => true
  | _ => false

/-- Whether it is a regular file. -/
def isRegular : Node → Bool
  | .file _ _ | .tool _ => true
  | _ => false

end Node

end Chaperone.Machine
