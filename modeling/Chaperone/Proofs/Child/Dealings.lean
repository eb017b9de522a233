import Chaperone.Proofs.Log
import Chaperone.Child.Exit

/-!
# Dealing with a child

Whoever holds a child may write to it, read from it, signal it and ask for its end, in any order and
any number of times.  `child.deal host w operations` is what comes of that on the machine `w`, whose
calls are logged: the child and the machine afterwards, and what each operation gave.

What holds of a child whatever is done with it is stated for `Child.deal` and proved for one
`Child.perform` at a time.  Ending a child in two steps is made of signals, looks and pauses, so
what these keep it keeps as well (`Child.terminateWithTimeout_rel`).
-/

namespace Chaperone

variable {ω : Type}

inductive Operation (ω : Type) where
  | write (data : List UInt8) (close : Bool)
  | flush
  | closeStdin
  | read (stream : OutputStream)
  | tryWait
  | wait
  | waitForIo (milliseconds : Nat)
  | terminate (force : Bool)
  | terminateWithTimeout (fuel grace : Nat)
  /-- Anything that does not concern the child. -/
  | elsewhere (change : ω → ω)

inductive Answer where
  | nothing
  | fed (result : Except WriteError Unit)
  | read (stream : OutputStream) (result : Except SystemError StreamState) (bytes : List UInt8)
  | looked (result : Except SystemError (Option ExitStatus))
  | awaited (result : Except SystemError ExitStatus)
  | watched (result : Except SystemError Unit)
  | signalled (result : Except TerminateError Unit)
  | ended (result : Option (Except Error ExitStatus))

structure Deed (ω : Type) where
  child : Child
  operation : Operation ω
  answer : Answer

structure Dealings (ω : Type) where
  /-- What was done, oldest first. -/
  past : List (Deed ω) := []
  child : Child
  machine : ω × Log

namespace Child

def perform (host : Host ω) (child : Child) (w : ω × Log) :
    Operation ω → Answer × Child × ω × Log
  | .write data close =>
    let (result, child, w) := child.write host.logged data close w
    (.fed result, child, w)
  | .flush =>
    let (result, child, w) := child.flushStdin host.logged w
    (.fed result, child, w)
  | .closeStdin =>
    let (child, w) := child.closeStdin host.logged w
    (.nothing, child, w)
  | .read stream =>
    let (result, bytes, child, w) := child.readStream host.logged stream w
    (.read stream result bytes, child, w)
  | .tryWait =>
    let (result, child, w) := child.tryWait host.logged w
    (.looked result, child, w)
  | .wait =>
    let (result, child, w) := child.wait host.logged w
    (.awaited result, child, w)
  | .waitForIo milliseconds =>
    let (result, w) := child.waitForIo host.logged milliseconds w
    (.watched result, child, w)
  | .terminate force =>
    let (result, w) := child.signal host.logged (.ofForce force) w
    (.signalled result, child, w)
  | .terminateWithTimeout fuel grace =>
    let (result, child, w) := child.terminateWithTimeout host.logged fuel grace w
    (.ended result, child, w)
  | .elsewhere change => (.nothing, child, change w.1, w.2)

def deal (host : Host ω) (child : Child) (w : ω × Log) : List (Operation ω) → Dealings ω
  | [] => { child, machine := w }
  | operation :: rest =>
    let (answer, child', w') := child.perform host w operation
    let after := child'.deal host w' rest
    { after with past := ⟨child, operation, answer⟩ :: after.past }

/-! ### Ending a child in two steps -/

section
variable (host : Host ω) {R : Child × ω → Child × ω → Prop}

theorem waitUntil_rel (hrefl : ∀ m, R m m) (htrans : ∀ {m m' m''}, R m m' → R m' m'' → R m m'')
    (hlook : ∀ child w, R (child, w) (child.tryWait host w).2)
    (hnow : ∀ child w, R (child, w) (child, (host.now w).2))
    (hsleep : ∀ child microseconds w, R (child, w) (child, host.sleep microseconds w))
    (fuel window : Nat) (child : Child) (w : ω) :
    R (child, w) (child.waitUntil host fuel window w).2 := by
  have hstep (start : Nat) (child : Child) (w : ω) :
      R (child, w) (Sum.elim id Prod.snd (lookForExit host start window (child, w))) := by
    have hlooked := hlook child w
    simp only [lookForExit]
    generalize child.tryWait host w = r at hlooked ⊢
    obtain ⟨cause | _ | status, child', w'⟩ := r
    · exact hlooked
    · dsimp only
      split
      · exact htrans hlooked (hnow child' w')
      · exact htrans hlooked (htrans (hnow child' w') (hsleep child' lookInterval _))
    · exact hlooked
  have hloop (start : Nat) (child : Child) (w : ω) : R (child, w)
      (Sum.elim id Prod.snd (iterate (lookForExit host start window) fuel (child, w))) := by
    induction fuel generalizing child w with
    | zero => exact hrefl _
    | succ fuel ih =>
      have hfirst := hstep start child w
      simp only [iterate]
      generalize lookForExit host start window (child, w) = r at hfirst ⊢
      obtain ⟨child', w'⟩ | answer := r
      · exact htrans hfirst (ih child' w')
      · exact hfirst
  have hall := htrans (hnow child w) (hloop (host.now w).1 child (host.now w).2)
  simp only [waitUntil]
  generalize iterate (lookForExit host (host.now w).1 window) fuel (child, (host.now w).2) = r
    at hall ⊢
  obtain ⟨child', w'⟩ | ⟨answer, child', w'⟩ := r <;> exact hall

/-- What signals, looks and pauses keep is kept when a child is ended in two steps. -/
theorem terminateWithTimeout_rel (hrefl : ∀ m, R m m)
    (htrans : ∀ {m m' m''}, R m m' → R m' m'' → R m m'')
    (hsignal : ∀ child signal w, R (child, w) (child, (child.signal host signal w).2))
    (hlook : ∀ child w, R (child, w) (child.tryWait host w).2)
    (hnow : ∀ child w, R (child, w) (child, (host.now w).2))
    (hsleep : ∀ child microseconds w, R (child, w) (child, host.sleep microseconds w))
    (fuel grace : Nat) (child : Child) (w : ω) :
    R (child, w) (child.terminateWithTimeout host fuel grace w).2 := by
  have hwait := waitUntil_rel host hrefl htrans hlook hnow hsleep fuel
  have hasked := hsignal child .terminate w
  simp only [terminateWithTimeout]
  generalize child.signal host .terminate w = r at hasked ⊢
  obtain ⟨cause | _, w₁⟩ := r
  · exact hasked
  have hgrace := htrans hasked (hwait grace child w₁)
  dsimp only
  generalize child.waitUntil host fuel grace w₁ = r at hgrace ⊢
  obtain ⟨_ | cause | _ | status, child₂, w₂⟩ := r
  · exact hgrace
  · exact hgrace
  · have hkilled := htrans hgrace (hsignal child₂ .kill w₂)
    dsimp only
    generalize child₂.signal host .kill w₂ = r at hkilled ⊢
    obtain ⟨cause | _, w₃⟩ := r
    · exact hkilled
    have hwindow := htrans hkilled (hwait killWindow child₂ w₃)
    dsimp only
    generalize child₂.waitUntil host fuel killWindow w₃ = r at hwindow ⊢
    obtain ⟨_ | cause | _ | status, child₄, w₄⟩ := r <;> exact hwindow
  · exact hgrace

end

end Child

end Chaperone
