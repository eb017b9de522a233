import Chaperone.Machine.Tool.Files
import Chaperone.Machine.Tool.Script
import Chaperone.Machine.Tool.Small
import Chaperone.Machine.Tool.Text

/-!
# The tools of the machine

The tools by the names of their files, as far as they are of use here.
-/

namespace Chaperone.Machine.Tool

/-- The tools by the names of their files. -/
def byName : List (String × Tool) :=
  [ ("cat", cat), ("head", head), ("tail", tail), ("tr", tr), ("wc", wc), ("sort", sort),
    ("uniq", uniq), ("rev", rev), ("tac", tac), ("cut", cut), ("sleep", sleep), ("echo", echo),
    ("printf", printf), ("pwd", pwd), ("env", env), ("printenv", printenv), ("seq", seq),
    ("yes", yes), ("tee", tee), ("test", test false), ("[", test true), ("uname", uname),
    ("whoami", whoami), ("id", id), ("rm", rm), ("rmdir", rmdir), ("mkdir", mkdir),
    ("touch", touch), ("chmod", chmod), ("cp", cp), ("mv", mv), ("ln", ln),
    ("readlink", readlink), ("basename", basename), ("dirname", dirname), ("ls", ls),
    ("perl", perl),
    ("true", fun _ _ => pure ()), ("false", fun _ _ => Routine.exit 1) ]

end Chaperone.Machine.Tool
