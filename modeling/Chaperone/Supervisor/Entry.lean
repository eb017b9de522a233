import Chaperone.Supervisor.Callbacks

/-!
# One supervised child

An entry of the registry is a child with its callbacks and a decoder for each output stream.  One
look at it writes queued input, hands over what the child has written, and then sees whether the
child has ended; if it has, the rest of the output and the exit status are handed over in the same
look.
-/

namespace Chaperone

/-- An entry of the registry. -/
structure Entry (σ : Type) : Type 1 where
  child : Child
  callbacks : Callbacks σ
  stdoutDecoder : Text.Utf8.Decoder := .new
  stderrDecoder : Text.Utf8.Decoder := .new
  /-- Whether the child is killed when queued input cannot be delivered. -/
  killOnInputFailure : Bool
  /-- Whether the exit has been handed over. -/
  finished : Bool := false

namespace Entry

variable {σ ω : Type}

/-- Something happens to the child now. -/
def occasion (host : Host ω) (entry : Entry σ) (w : ω) : Occasion :=
  ⟨entry.child.pid, host.wallClock w⟩

/-- The entry of a child that was just launched, whose first callback runs now. -/
def launched (host : Host ω) (child : Child) (callbacks : Callbacks σ)
    (killOnInputFailure : Bool) (s : σ) (w : ω) : Entry σ × σ × ω :=
  match callbacks.onStarted with
  | none => ({ child, callbacks, killOnInputFailure }, s, w)
  | some started =>
    let ((memory, s), child, w) :=
      (started ⟨child.pid, host.wallClock w⟩ callbacks.memory s).run host child w
    let callbacks := { callbacks.remember memory with onStarted := none }
    ({ child, callbacks, killOnInputFailure }, s, w)

/-- The decoder of an output stream. -/
def decoder (entry : Entry σ) : OutputStream → Text.Utf8.Decoder
  | .stdout => entry.stdoutDecoder
  | .stderr => entry.stderrDecoder

/-- The entry with another decoder of an output stream. -/
def withDecoder (entry : Entry σ) (decoder : Text.Utf8.Decoder) : OutputStream → Entry σ
  | .stdout => { entry with stdoutDecoder := decoder }
  | .stderr => { entry with stderrDecoder := decoder }

/-- Hands text to the callback of a stream.  Empty text is not handed over. -/
def emit (host : Host ω) (stream : OutputStream) (text : String) (entry : Entry σ) (s : σ)
    (w : ω) : Entry σ × σ × ω :=
  if text.isEmpty then (entry, s, w)
  else
    match entry.callbacks.onOutput stream with
    | none => (entry, s, w)
    | some callback =>
      let ((memory, s), child, w) :=
        (callback (entry.occasion host w) text entry.callbacks.memory s).run host entry.child w
      ({ entry with child, callbacks := entry.callbacks.remember memory }, s, w)

/-- Hands over what a stream has. -/
def deliver (host : Host ω) (stream : OutputStream) (entry : Entry σ) (s : σ) (w : ω) :
    Entry σ × σ × ω :=
  let (_, bytes, child, w) := entry.child.readStream host stream w
  let entry := { entry with child }
  if bytes.isEmpty then (entry, s, w)
  else
    let (decoder, text) := (entry.decoder stream).decode bytes
    (entry.withDecoder decoder stream).emit host stream text s w

/-- Hands over what the decoder of a stream held back. -/
def deliverTail (host : Host ω) (stream : OutputStream) (entry : Entry σ) (s : σ) (w : ω) :
    Entry σ × σ × ω :=
  let (decoder, text) := (entry.decoder stream).finish
  (entry.withDecoder decoder stream).emit host stream text s w

/-- Writes queued input, if there is any. -/
def flush (host : Host ω) (entry : Entry σ) (w : ω) : Entry σ × ω :=
  if entry.child.hasPendingInput then
    match entry.child.flushStdin host w with
    | (.ok (), child, w) => ({ entry with child }, w)
    | (.error _, child, w) =>
      if entry.killOnInputFailure then
        let (_, w) := child.signal host .kill w
        ({ entry with child }, w)
      else ({ entry with child }, w)
  else (entry, w)

/-- Writes queued input and hands over what the child has written. -/
def exchange (host : Host ω) (entry : Entry σ) (s : σ) (w : ω) : Entry σ × σ × ω :=
  let (entry, w) := entry.flush host w
  let (entry, s, w) := entry.deliver host .stdout s w
  entry.deliver host .stderr s w

/-- Hands over the rest of the output, down to what the decoders held back. -/
def deliverRest (host : Host ω) (entry : Entry σ) (s : σ) (w : ω) : Entry σ × σ × ω :=
  let (entry, s, w) := entry.deliver host .stdout s w
  let (entry, s, w) := entry.deliver host .stderr s w
  let (entry, s, w) := entry.deliverTail host .stdout s w
  entry.deliverTail host .stderr s w

/-- Hands over the exit status. -/
def conclude (host : Host ω) (status : ExitStatus) (entry : Entry σ) (s : σ) (w : ω) :
    Entry σ × σ × ω :=
  let (exit, callbacks) := entry.callbacks.takeExit
  let s := match exit with
    | some exit => exit (entry.occasion host w) status s
    | none => s
  ({ entry with callbacks, finished := true }, s, w)

/-- Hands over the rest of the output and the exit status. -/
def finish (host : Host ω) (status : ExitStatus) (entry : Entry σ) (s : σ) (w : ω) :
    Entry σ × σ × ω :=
  let (entry, s, w) := entry.deliverRest host s w
  entry.conclude host status s w

/-- One look at a child. -/
def poll (host : Host ω) (entry : Entry σ) (s : σ) (w : ω) : Entry σ × σ × ω :=
  let (entry, s, w) := entry.exchange host s w
  match entry.child.tryWait host w with
  | (.ok (some status), child, w) => { entry with child }.finish host status s w
  | (_, child, w) => ({ entry with child }, s, w)

end Entry

end Chaperone
