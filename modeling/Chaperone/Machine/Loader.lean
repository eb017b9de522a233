import Chaperone.Machine.Kernel
import Chaperone.Machine.Shell
import Chaperone.Machine.Tool

/-!
# Loading programs

A file is executed if somebody may execute it and it has a known form: it is a tool of the system,
or its first line names an interpreter.  An interpreter is given its argument, if the line has one,
and the path of the file before the other arguments.
-/

namespace Chaperone.Machine

/-- The tools by the names of their files. -/
def tool? (name : String) : Option Tool :=
  if name = "sh" then some Shell.tool else Tool.byName.lookup name

/-- How much of a file is looked at for an interpreter. -/
def headLength : Nat := 256

/-- How many files a launch may look at, the first one and its interpreters together. -/
def maxFiles : Nat := 6

/-- Whether a character is a blank. -/
def isBlank (c : Char) : Bool := c == ' ' || c == '\t'

/-- The text up to its first zero character. -/
def upToZero (text : List Char) : String := String.ofList (text.takeWhile (· != '\x00'))

/-- The interpreter that a line names after its mark, and its argument.  A text without an end of
line is filled up with zeros, which end a name too. -/
def interpreterOf (line : List Char) : String × Option String :=
  let path := line.takeWhile fun c => !isBlank c && c != '\x00'
  match line.drop path.length with
  | c :: rest =>
    (String.ofList path,
      match isBlank c, rest.dropWhile isBlank with
      | true, d :: more => some (upToZero (d :: more))
      | _, _ => none)
  | [] => (String.ofList path, none)

/-- The interpreter that the first line of a file names, and its argument.  A name that the part
of the file that is looked at may not show whole does not count. -/
def interpreter? (content : List UInt8) : Option (String × Option String) :=
  let head := (content.take headLength).map fun b => Char.ofNat b.toNat
  match head with
  | '#' :: '!' :: rest =>
    let line := rest.takeWhile fun c => c != '\n' && c != '\x00'
    if rest[line.length]? = some '\n' then
      let line := ((line.reverse.dropWhile isBlank).reverse).dropWhile isBlank
      if line.isEmpty then none else some (interpreterOf line)
    else
      let filled := (rest ++ List.replicate (headLength - head.length) '\x00').dropWhile isBlank
      if filled.any fun c => isBlank c || c == '\x00' then some (interpreterOf filled.dropLast)
      else none
  | _ => none

/-- Loads a program for a process in a directory, looking at `fuel` files at most. -/
def loadFile (fuel : Nat) (files : Files) (directory file : Place) (path : String)
    (args : List String) (vars : Variables) : Except Errno Task :=
  match fuel with
  | 0 => .error Errno.linkLoop
  | fuel + 1 =>
    match files.at? file with
    | none => .error Errno.noEntry
    | some (.tool name) =>
      match tool? name with
      | some tool => .ok (tool args vars).toTask
      | none => .error Errno.notExecutable
    | some (.file mode content) =>
      if mode &&& 0o111 = 0 then .error Errno.accessDenied
      else
        match interpreter? content with
        | none => .error Errno.notExecutable
        | some (interpreter, argument) =>
          match files.find directory interpreter with
          | .error errno => .error errno
          | .ok (file, _) =>
            loadFile fuel files directory file interpreter
              (interpreter :: argument.toList ++ path :: args.drop 1) vars
    | some _ => .error Errno.accessDenied

/-- The loader of the machine. -/
def loader : Loader := loadFile maxFiles

end Chaperone.Machine
