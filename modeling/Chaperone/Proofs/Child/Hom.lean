import Chaperone.Launch.Start
import Chaperone.Proofs.Log
import Chaperone.Supervisor.Script

/-!
# Machines that answer alike

All that is done for a child is done through the calls of a `Host`.  So if a map of states carries
the answers of one machine to those of another (`Host.Hom`), it carries whole runs.

Two such maps concern the log of a machine.  `Host.forget` takes it away: to keep a log changes
nothing.  `Host.before` puts other calls before it: what is done does not depend on calls that were
made before.
-/

namespace Chaperone

variable {ω ω' : Type}

/-- A map of states that carries the answers of one machine to those of another. -/
structure Host.Hom (host : Host ω) (host' : Host ω') (f : ω → ω') : Prop where
  read : ∀ d n w, host'.read d n (f w) = (host.read d n w).map id f
  write : ∀ d bytes w, host'.write d bytes (f w) = (host.write d bytes w).map id f
  close : ∀ d w, host'.close d (f w) = f (host.close d w)
  reap : ∀ pid w, host'.reap pid (f w) = (host.reap pid w).map id f
  await : ∀ pid w, host'.await pid (f w) = (host.await pid w).map id f
  kill : ∀ target signal w, host'.kill target signal (f w) = (host.kill target signal w).map id f
  watch : ∀ pipes time w, host'.watch pipes time (f w) = (host.watch pipes time w).map id f
  sleep : ∀ time w, host'.sleep time (f w) = f (host.sleep time w)
  now : ∀ w, host'.now (f w) = (host.now w).map id f
  start : ∀ request w, host'.start request (f w) = (host.start request w).map id f
  view : ∀ w, host'.view (f w) = host.view w
  wallClock : ∀ w, host'.wallClock (f w) = host.wallClock w

/-- To keep a log changes nothing. -/
theorem Host.forget (host : Host ω) : Host.Hom host.logged host Prod.fst := by
  constructor <;> intros <;> rfl

def Log.before (first : Log) (w : ω × Log) : ω × Log := (w.1, first ++ w.2)

/-- What is done does not depend on calls that were made before. -/
theorem Host.before (host : Host ω) (first : Log) :
    Host.Hom host.logged host.logged (Log.before first) := by
  constructor <;> intros <;> simp [Host.logged, Log.before]

variable {host : Host ω} {host' : Host ω'} {f : ω → ω'}

/-! ### Standard input -/

namespace Child

theorem closeStdin_hom (h : Host.Hom host host' f) (child : Child) (w : ω) :
    child.closeStdin host' (f w) = (child.closeStdin host w).map id f := by
  rw [closeStdin, closeStdin]
  cases child.stdin with
  | none => rfl
  | some d =>
    simp only [h.close]
    rfl

theorem failStdin_hom (h : Host.Hom host host' f) (child : Child) (cause : WriteError) (w : ω) :
    child.failStdin host' cause (f w) = (child.failStdin host cause w).map id (.map id f) := by
  rw [failStdin, failStdin, closeStdin_hom h]
  rfl

/-- A write that is carried over. -/
theorem write_hom_of (h : Host.Hom host host' f) {d : Descriptor} {bytes : List UInt8}
    {w w' : ω} {result : WriteResult} (hw : host.write d bytes w = (result, w')) :
    host'.write d bytes (f w) = (result, f w') := by
  rw [h.write, hw]
  rfl

/-- Without queued input a flush writes nothing. -/
theorem flushStdin_nil (host : Host ω) {child : Child} (hp : child.pendingInput = []) (w : ω) :
    child.flushStdin host w =
      if child.closeWhenFlushed then (.ok (), child.closeStdin host w) else (.ok (), child, w) := by
  rw [flushStdin]
  split
  · rfl
  · next hp' => rw [hp] at hp'; cases hp'

/-- A flush writes nothing to a child that takes no input. -/
theorem flushStdin_none (host : Host ω) {child : Child} {b : UInt8} {rest : List UInt8}
    (hp : child.pendingInput = b :: rest) (hd : child.stdin = none) (w : ω) :
    child.flushStdin host w =
      (.error (.closed child.pid), { child with pendingInput := [] }, w) := by
  rw [flushStdin]
  split
  · next hp' => rw [hp] at hp'; cases hp'
  · split
    · rfl
    · next hd' => rw [hd] at hd'; cases hd'

/-- One step of a flush. -/
theorem flushStdin_cons (host : Host ω) {child : Child} {b : UInt8} {rest : List UInt8}
    {d : Descriptor} (hp : child.pendingInput = b :: rest) (hd : child.stdin = some d) (w : ω) :
    child.flushStdin host w =
      match host.write d (b :: rest) w with
      | (.wrote 0, w) => failStdin host child (.closed child.pid) w
      | (.wrote (count + 1), w) =>
        flushStdin host { child with pendingInput := rest.drop count } w
      | (.wouldBlock, w) => (.ok (), child, w)
      | (.interrupted, w) => flushStdin host child w
      | (.brokenPipe, w) => failStdin host child (.closed child.pid) w
      | (.failed cause, w) => failStdin host child (.osFailure child.pid cause) w := by
  rw [flushStdin]
  split
  · next hp' => rw [hp] at hp'; cases hp'
  · next hp' =>
    obtain ⟨rfl, rfl⟩ := List.cons.inj (hp.symm.trans hp')
    split
    · next hd' => rw [hd] at hd'; cases hd'
    · next hd' =>
      obtain rfl := Option.some.inj (hd.symm.trans hd')
      split <;> next hw => rw [hw]

theorem flushStdin_hom (h : Host.Hom host host' f) (child : Child) (w : ω) :
    child.flushStdin host' (f w) = (child.flushStdin host w).map id (.map id f) := by
  fun_induction flushStdin host child w with
  | case1 child w hp hclose child' w' hc =>
    rw [flushStdin_nil host' hp, if_pos hclose, closeStdin_hom h, hc]
    rfl
  | case2 child w hp hclose =>
    rw [flushStdin_nil host' hp, if_neg hclose]
    rfl
  | case3 child w b rest hp hd =>
    rw [flushStdin_none host' hp hd]
    rfl
  | case4 child w b rest hp d hd w' hw | case8 child w b rest hp d hd w' hw
  | case9 child w b rest hp d hd cause w' hw =>
    rw [flushStdin_cons host' hp hd, write_hom_of h hw]
    exact failStdin_hom h ..
  | case5 child w b rest hp d hd count w' hw ih | case7 child w b rest hp d hd w' hw ih =>
    rw [flushStdin_cons host' hp hd, write_hom_of h hw]
    exact ih
  | case6 child w b rest hp d hd w' hw =>
    rw [flushStdin_cons host' hp hd, write_hom_of h hw]
    rfl

theorem write_hom (h : Host.Hom host host' f) (data : List UInt8) (close : Bool) (child : Child)
    (w : ω) :
    child.write host' data close (f w) = (child.write host data close w).map id (.map id f) := by
  rw [write, write]
  split
  · rfl
  · exact flushStdin_hom h ..

theorem signal_hom (h : Host.Hom host host' f) (signal : Signal) (child : Child) (w : ω) :
    child.signal host' signal (f w) = (child.signal host signal w).map id f := by
  rw [Child.signal, Child.signal, h.kill]
  split
  · rfl
  · generalize host.kill child.target signal w = r
    obtain ⟨_ | _, w'⟩ := r
    · dsimp only [Prod.map, id]
      split <;> rfl
    · rfl

end Child

theorem Script.run_hom {α : Type} (h : Host.Hom host host' f) (script : Script α) (child : Child)
    (w : ω) : script.run host' child (f w) = (script.run host child w).map id (.map id f) := by
  induction script generalizing child w with
  | done value => rfl
  | write text close next ih =>
    rw [Script.run, Child.write_hom h]
    exact ih ..
  | closeStdin next ih =>
    rw [Script.run, Child.closeStdin_hom h]
    exact ih ..
  | signal s next ih =>
    rw [Script.run, Child.signal_hom h]
    exact ih ..

/-! ### Output -/

/-- A drain takes what one read gives, and then goes on or ends. -/
theorem drain_eq (host : Host ω) (d : Descriptor) (taken : List UInt8) (count : Nat) (w : ω) :
    drain host d taken count w =
      match host.read d readChunk w with
      | (.bytes [], w) => (.ended, taken, w)
      | (.bytes (b :: chunk), w) =>
        if maxPerCall ≤ count + (chunk.length + 1) then (.later, taken ++ b :: chunk, w)
        else drain host d (taken ++ b :: chunk) (count + (chunk.length + 1)) w
      | (.wouldBlock, w) => (.later, taken, w)
      | (.interrupted, w) => drain host d taken count w
      | (.failed cause, w) => (.failed cause, taken, w) := by
  rw [drain]
  split <;> next hr => rw [hr]

theorem read_hom_of (h : Host.Hom host host' f) {d : Descriptor} {count : Nat} {w w' : ω}
    {result : ReadResult} (hr : host.read d count w = (result, w')) :
    host'.read d count (f w) = (result, f w') := by
  rw [h.read, hr]
  rfl

theorem drain_hom (h : Host.Hom host host' f) (d : Descriptor) (taken : List UInt8) (count : Nat)
    (w : ω) :
    drain host' d taken count (f w) = (drain host d taken count w).map id (.map id f) := by
  fun_induction drain host d taken count w with
  | case1 taken count w w' hr | case4 taken count w w' hr | case6 taken count w cause w' hr =>
    rw [drain_eq, read_hom_of h hr]
    rfl
  | case2 taken count w b chunk w' hr count' hfull =>
    rw [drain_eq, read_hom_of h hr]
    exact if_pos hfull
  | case3 taken count w b chunk w' hr count' hfull ih =>
    rw [drain_eq, read_hom_of h hr]
    exact (if_neg hfull).trans ih
  | case5 taken count w w' hr ih =>
    rw [drain_eq, read_hom_of h hr]
    exact ih

namespace Child

theorem readStream_hom (h : Host.Hom host host' f) (stream : OutputStream) (child : Child) (w : ω) :
    child.readStream host' stream (f w) =
      (child.readStream host stream w).map id (.map id (.map id f)) := by
  simp only [readStream]
  split
  · rfl
  · next d hd =>
    rw [drain_hom h]
    generalize drain host d _ 0 w = r
    obtain ⟨_ | _ | _, bytes, w'⟩ := r
    · rfl
    · simp only [Prod.map_apply, id, h.close]
    · simp only [Prod.map_apply, id, h.close]

theorem keepRest_hom (h : Host.Hom host host' f) (stream : OutputStream) (child : Child) (w : ω) :
    child.keepRest host' stream (f w) = (child.keepRest host stream w).map id f := by
  simp only [keepRest]
  split
  · rfl
  · rw [drain_hom h]
    rfl

theorem releasePipe_hom (h : Host.Hom host host' f) (stream : OutputStream) (child : Child)
    (w : ω) :
    child.releasePipe host' stream (f w) = (child.releasePipe host stream w).map id f := by
  simp only [releasePipe]
  split
  · rfl
  · rw [h.close]
    rfl

/-! ### The end -/

theorem recordExit_hom (h : Host.Hom host host' f) (status : ExitStatus) (child : Child) (w : ω) :
    child.recordExit host' status (f w) = (child.recordExit host status w).map id f := by
  simp only [recordExit, keepRest_hom h, releasePipe_hom h, closeStdin_hom h, Prod.map_fst,
    Prod.map_snd, id]
  rfl

theorem tryWait_hom (h : Host.Hom host host' f) (child : Child) (w : ω) :
    child.tryWait host' (f w) = (child.tryWait host w).map id (.map id f) := by
  simp only [tryWait]
  cases child.status with
  | some status => rfl
  | none =>
    simp only [h.reap]
    generalize host.reap child.pid w = r
    obtain ⟨_ | _ | errno, w'⟩ := r
    · simp only [Prod.map_apply, id, recordExit_hom h]
      rfl
    · rfl
    · dsimp only [Prod.map, id]
      split
      · simp only [recordExit_hom h]
        rfl
      · rfl

theorem wait_hom (h : Host.Hom host host' f) (child : Child) (w : ω) :
    child.wait host' (f w) = (child.wait host w).map id (.map id f) := by
  simp only [wait]
  cases child.status with
  | some status => rfl
  | none =>
    simp only [h.await]
    generalize host.await child.pid w = r
    obtain ⟨errno | word, w'⟩ := r
    · dsimp only [Prod.map, id]
      split
      · simp only [recordExit_hom h]
        rfl
      · rfl
    · simp only [Prod.map_apply, id, recordExit_hom h]
      rfl

theorem waitForIo_hom (h : Host.Hom host host' f) (milliseconds : Nat) (child : Child) (w : ω) :
    child.waitForIo host' milliseconds (f w) = (child.waitForIo host milliseconds w).map id f := by
  simp only [waitForIo]
  split
  · rw [h.sleep]
    rfl
  · rw [h.watch]
    generalize host.watch _ _ w = r
    obtain ⟨errno | _, w'⟩ := r
    · dsimp only [Prod.map, id]
      split <;> rfl
    · rfl

end Child

/-! ### The start -/

theorem spawn_hom (h : Host.Hom host host' f) (executable : String) (args : List String)
    (options : LaunchOptions) (w : ω) :
    spawn host' executable args options (f w) =
      (spawn host executable args options w).map id f := by
  simp only [spawn, h.view, h.start]
  split
  · rfl
  · split
    · rfl
    · split
      · rfl
      · generalize host.start _ w = r
        obtain ⟨_ | _, w'⟩ := r
        · rfl
        · rfl

end Chaperone
