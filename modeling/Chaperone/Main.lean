import Chaperone.CommandLine.Execute
import Chaperone.Machine.Boot

/-!
# The program

Runs a command line on a machine at its start, into which the supervision file is copied, and prints
what is left.
-/

open Chaperone.Machine

namespace Chaperone.CommandLine

/-- The fuel of the program: more steps than any run of it takes. -/
def endurance : Nat := 0x4000000000000000

/-- The machine, with the supervision file that a command line names. -/
def machine (words : List String) : IO World := do
  let w := World.initial "/root"
  match Invocation.read words with
  | .ok (.supervise config _) =>
    try
      let content ← IO.FS.readBinFile config
      let place := match w.kernel.files.locate true w.directory (ofText config) with
        | .ok place => place
        | .error _ => w.directory ++ [config]
      let files := w.kernel.files.makeDirectory place.dropLast
      return { w with kernel := { w.kernel with
        files := files.put place (.file 0o644 content.toList) } }
    catch _ => return w
  | _ => return w

end Chaperone.CommandLine

open Chaperone Chaperone.CommandLine in
/-- Runs the program. -/
def main (words : List String) : IO UInt32 := do
  match (execute World.host endurance words (← machine words)).1 with
  | none => return 1
  | some ending =>
    (← IO.getStdout).putStr ending.stdout
    (← IO.getStderr).putStr ending.stderr
    return UInt32.ofInt ending.code
