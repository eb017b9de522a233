import Chaperone.Failure.Error
import Chaperone.Launch.Path
import Chaperone.Process.Options

/-!
# Finding the executable of a program

A name with a slash is a path, and is taken from the working directory of the program if it is
relative.  Any other name is looked up in the directories of the search path that the program will
have: the first executable file wins, and if there is none, the first thing of that name that is
not an executable file is what permission was denied for.

The file system is seen through a `FileView`, so that what is found is a function of what is there.
-/

namespace Chaperone

/-- What a path leads to. -/
inductive Candidate where
  /-- A regular file that someone may execute. -/
  | executable
  /-- Anything else that exists. -/
  | notExecutable
  | missing
  deriving DecidableEq, Repr, Inhabited

/-- What the launcher sees of the machine before a launch. -/
structure FileView where
  candidate : String → Candidate
  isDirectory : String → Bool
  currentDirectory : Except SystemError String
  /-- The launcher's own environment, in its order. -/
  vars : List (String × String)

namespace Launch

/-- The search path of a program that is given none. -/
def defaultSearchPath : String := "/usr/local/bin:/usr/bin:/bin"

/-- The search path that a program will have. -/
def searchPath (view : FileView) (options : LaunchOptions) : String :=
  match options.environment.get? "PATH" with
  | some path => path
  | none =>
    match options.environmentBase with
    | .clear => defaultSearchPath
    | .inherit => (view.vars.lookup "PATH").getD defaultSearchPath

/-- The directory that relative names are taken from, if the program starts in one of its own.  It
does not depend on where the launcher is. -/
def base (view : FileView) (executable : String) (options : LaunchOptions) :
    Except SpawnError (Option String) :=
  match options.workingDirectory with
  | none => .ok none
  | some directory =>
    if Path.isAbsolute directory then .ok (some directory)
    else
      match view.currentDirectory with
      | .ok current => .ok (some (Path.join current directory))
      | .error cause => .error (.osFailure executable cause)

/-- The entries of a search path, which colons divide. -/
def entries (searchPath : String) : List String :=
  (searchPath.toList.splitOn ':').map String.ofList

/-- The directory that an entry of the search path stands for.  An empty entry is the directory
where the program starts. -/
def entryDirectory (base : Option String) (entry : String) : String :=
  let directory := if entry.isEmpty then "." else entry
  match base with
  | some base => Path.join base directory
  | none => directory

/-- Where a name without a slash may be, in the order of the search. -/
def candidates (searchPath : String) (base : Option String) (name : String) : List String :=
  (entries searchPath).map fun entry => Path.join (entryDirectory base entry) name

/-- Tries paths in turn until one is executable.  `denied` is the first one so far where something
else is. -/
def firstExecutable (view : FileView) (name : String) (denied : Option String) :
    List String → Except SpawnError String
  | [] =>
    match denied with
    | some path => .error (.permissionDenied path)
    | none => .error (.notFound name)
  | path :: rest =>
    match view.candidate path with
    | .executable => .ok path
    | .notExecutable => firstExecutable view name (denied.or (some path)) rest
    | .missing => firstExecutable view name denied rest

/-- The path of the file that a program's name stands for. -/
def resolve (view : FileView) (executable : String) (options : LaunchOptions) :
    Except SpawnError String :=
  if executable.isEmpty then .error (.notFound executable)
  else do
    let base ← base view executable options
    if executable.contains '/' then
      let path := match base with
        | some base => Path.join base executable
        | none => executable
      match view.candidate path with
      | .executable => return path
      | .notExecutable => throw (.permissionDenied path)
      | .missing => throw (.notFound executable)
    else
      firstExecutable view executable none
        (candidates (searchPath view options) base executable)

/-! ## Environments of programs -/

/-- The environment block of a program: the launcher's own, unless something is changed or the
base is empty; then the variables in the order of their names, each once. -/
def environmentBlock (view : FileView) (options : LaunchOptions) : List (String × String) :=
  match options.environmentBase with
  | .clear => options.environment.entries
  | .inherit =>
    if options.environment.isEmpty then view.vars
    else
      (options.environment.entries.foldl (fun all (name, value) => all.insert name value)
        (Environment.ofList view.vars)).entries

end Launch

/-- The shell that runs command lines. -/
def shell : String := "/bin/sh"

/-- The arguments with which the shell runs a command line. -/
def shellArguments (command : String) : List String := ["-c", command]

end Chaperone
