import Chaperone.Child.Basic

/-!
# Starting a program

The working directory is checked first, then the executable is found, and then the machine is
asked to start it.
-/

namespace Chaperone

variable {ω : Type}

/-- Whether a text can be handed to the system, where texts end with a zero byte. -/
def isPlain (text : String) : Bool := !text.contains '\x00'

/-- Why a program with such a text is not started. -/
def zeroByte : SystemError := .refused "nul byte found in provided data"

namespace LaunchRequest

/-- The request to start `path` under the name `executable`. -/
def of (view : FileView) (path executable : String) (args : List String)
    (options : LaunchOptions) : LaunchRequest where
  path
  name := executable
  args
  directory := options.workingDirectory
  vars := Launch.environmentBlock view options
  stdin := options.stdin
  stdout := options.stdout
  stderr := options.stderr
  newSession := options.detachProcessGroup

/-- Whether every text of a request can be handed to the system. -/
def isPlain (request : LaunchRequest) : Bool :=
  Chaperone.isPlain request.path && Chaperone.isPlain request.name &&
    request.args.all Chaperone.isPlain && request.directory.all Chaperone.isPlain &&
    request.vars.all fun (name, value) => Chaperone.isPlain name && Chaperone.isPlain value

end LaunchRequest

namespace SpawnError

/-- The failure to start the file `path` for this reason. -/
def ofSystem (executable path : String) (cause : SystemError) : SpawnError :=
  if cause = .os Errno.noEntry then .notFound executable
  else if cause = .os Errno.accessDenied || cause = .os Errno.notPermitted then
    .permissionDenied path
  else .osFailure executable cause

end SpawnError

/-- The working directory that is not there, if the options name one. -/
def missingDirectory? (view : FileView) (options : LaunchOptions) : Option String :=
  options.workingDirectory.filter fun directory => !view.isDirectory directory

/-- Starts a program. -/
def spawn (host : Host ω) (executable : String) (args : List String) (options : LaunchOptions)
    (w : ω) : Except SpawnError Child × ω :=
  let view := host.view w
  match missingDirectory? view options with
  | some directory =>
    (.error (.osFailure executable
      (.refused ("working directory " ++ directory ++ " does not exist"))), w)
  | none =>
    match Launch.resolve view executable options with
    | .error cause => (.error cause, w)
    | .ok path =>
      let request := LaunchRequest.of view path executable args options
      if !request.isPlain then (.error (.ofSystem executable path zeroByte), w)
      else
        match host.start request w with
        | (.error cause, w) => (.error (.ofSystem executable path cause), w)
        | (.ok launched, w) =>
          (.ok {
            pid := launched.pid
            stdin := launched.stdin
            stdout := launched.stdout
            stderr := launched.stderr
            leadsGroup := options.detachProcessGroup }, w)

end Chaperone
