import Chaperone.Machine.Loader
import Chaperone.Machine.World

/-!
# A machine at its start

The usual directories, the tools in `/usr/bin`, and a supervisor with a directory of its own.
-/

namespace Chaperone.Machine

/-- Where tools are. -/
def toolPlace : Place := ["usr", "bin"]

/-- The tree of files at the start. -/
def initialFiles : Files :=
  let directories : List Place :=
    [ ["dev"], ["etc"], ["home"], ["proc"], ["root"], ["tmp"], ["usr", "bin"], ["usr", "lib"],
      ["usr", "local", "bin"], ["usr", "sbin"], ["var", "tmp"] ]
  let files := directories.foldl (fun files place => files.makeDirectory place) ({} : Files)
  let files := (Tool.byName.map (·.1)).foldl (fun files name =>
    files.put (toolPlace ++ [name]) (.tool name)) files
  let files := files.put (toolPlace ++ ["dash"]) (.tool "sh")
  let files := files.put (toolPlace ++ ["sh"]) (.link "dash")
  let files := files.put ["bin"] (.link "usr/bin")
  let files := files.put ["sbin"] (.link "usr/sbin")
  let files := files.put ["lib"] (.link "usr/lib")
  let files := files.put ["etc", "passwd"] (.file 0o644 (toBytes "root:x:0:0:root:/root:/bin/sh\n"))
  (files.put ["dev", "null"] .null).put ["dev", "zero"] .zero

/-- The search path at the start. -/
def initialSearchPath : String := "/usr/local/bin:/usr/bin:/bin"

/-- The machine at its start, with the supervisor in a directory. -/
def World.initial (directory : String) : World :=
  let place := Files.split directory
  { kernel := { files := initialFiles.makeDirectory place, load := loader }
    directory := place
    vars := [("PATH", initialSearchPath), ("LC_ALL", "C")] }

end Chaperone.Machine
