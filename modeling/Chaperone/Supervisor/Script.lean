import Chaperone.Child.Exit
import Chaperone.Text.Utf8

/-!
# What a callback does to its child

While a callback runs it may write to its child, close the child's standard input or ask the child
to end, any number of times, and each time it sees the result before it goes on.  A `Script` is
such a sequence of requests with a value at its end.
-/

namespace Chaperone

/-- Requests to a child, and what comes of them. -/
inductive Script (α : Type) where
  | done (value : α)
  /-- Queue a text for standard input, which with `close` ends after it. -/
  | write (text : String) (close : Bool) (next : Except WriteError Unit → Script α)
  | closeStdin (next : Script α)
  | signal (signal : Signal) (next : Except TerminateError Unit → Script α)

namespace Script

/-- Goes on with what comes of a script. -/
def bind {α β : Type} : Script α → (α → Script β) → Script β
  | .done a, f => f a
  | .write text close next, f => .write text close fun result => (next result).bind f
  | .closeStdin next, f => .closeStdin (next.bind f)
  | .signal s next, f => .signal s fun result => (next result).bind f

instance : Monad Script where
  pure := .done
  bind := Script.bind

/-- Does what a script asks for. -/
def run {ω α : Type} (host : Host ω) : Script α → Child → ω → α × Child × ω
  | .done value, child, w => (value, child, w)
  | .write text close next, child, w =>
    let (result, child, w) := child.write host (Text.Utf8.encode text) close w
    (next result).run host child w
  | .closeStdin next, child, w =>
    let (child, w) := child.closeStdin host w
    next.run host child w
  | .signal s next, child, w =>
    let (result, w) := child.signal host s w
    (next result).run host child w

/-- Feeds a child its whole input, which ends there.  A child that does not take it is killed. -/
def feed (input : String) : Script Unit :=
  if input.isEmpty then .closeStdin (.done ())
  else .write input true fun
    | .ok () => .done ()
    | .error _ => .signal .kill fun _ => .done ()

end Script

end Chaperone
