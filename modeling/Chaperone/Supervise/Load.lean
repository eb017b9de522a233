import Chaperone.Host
import Chaperone.Supervise.Plan
import Chaperone.Text.Quoted
import Chaperone.Text.Utf8

/-!
# Plans in files
-/

namespace Chaperone.Plan

variable {ω : Type}

/-- Why a file could not be read as a plan. -/
def unreadableFile (path reason : String) : Error :=
  .configuration ("Failed to read config " ++ Text.quoted path ++ ": " ++ reason)

/-- The plan in a file, checked. -/
def load (host : Host ω) (path : String) (w : ω) : Except Error Plan × ω :=
  match host.readFile path w with
  | (.error cause, w) => (.error (unreadableFile path cause.message), w)
  | (.ok bytes, w) =>
    match Text.Utf8.decode? bytes with
    | none => (.error (unreadableFile path "stream did not contain valid UTF-8"), w)
    | some text => (ofToml text, w)

end Chaperone.Plan
