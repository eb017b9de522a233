import Chaperone.Proofs.Child.Input
import Mathlib.Logic.Function.Basic

/-!
# Where the output of a child goes

What is read from the output pipes of a child is either given to whoever asked for it, or kept as a
residue until somebody asks.  `Flow out seen child log` says that nothing else happens to it: of
each stream the bytes received so far are those that were given, `seen`, and then the residue, and
the pipe of the stream is still the one it began with, `out`, or has been released.

* `Flow.readStream`: a read gives the residue and what it receives.
* `Flow.recordExit`: what is received when the exit is recorded goes to the residue.
* `Flow.tells`: writing to the child changes nothing.

The two streams are read independently, as long as their pipes are different ones (`Apart`).
-/

namespace Chaperone

variable {ω : Type}

/-! ### Reading from a pipe -/

theorem log_of_read {host : Host ω} {d : Descriptor} {n : Nat} {w w' : ω × Log}
    {result : ReadResult} (h : host.logged.read d n w = (result, w')) :
    w'.2 = w.2 ++ [.read d n result] := by
  obtain ⟨rfl, rfl⟩ := Prod.mk.inj h
  rfl

theorem drains_of_read {host : Host ω} {d : Descriptor} {n : Nat} {w w' : ω × Log}
    {result : ReadResult} (h : host.logged.read d n w = (result, w')) :
    Only (Call.Drains (some d)) w w' :=
  .one (.read d n result) rfl (log_of_read h)

theorem received_of_read {host : Host ω} {d : Descriptor} {n : Nat} {w w' : ω × Log}
    {result : ReadResult} (h : host.logged.read d n w = (result, w')) :
    received (some d) w'.2 =
      received (some d) w.2 ++ Call.payload (some d) (.read d n result) := by
  rw [log_of_read h, received_append]
  simp [received]

/-- `drain` gives what it was given and what it received, in this order. -/
theorem drain_spec (host : Host ω) (d : Descriptor) (taken : List UInt8) (count : Nat)
    (w : ω × Log) :
    Only (Call.Drains (some d)) w (drain host.logged d taken count w).2.2 ∧
      ∃ bytes, (drain host.logged d taken count w).2.1 = taken ++ bytes ∧
        received (some d) (drain host.logged d taken count w).2.2.2 =
          received (some d) w.2 ++ bytes := by
  fun_induction drain host.logged d taken count w with
  | case1 taken count w w' hr | case4 taken count w w' hr | case6 taken count w cause w' hr =>
    refine ⟨drains_of_read hr, [], (List.append_nil _).symm, ?_⟩
    simp [received_of_read hr, Call.payload]
  | case2 taken count w b chunk w' hr count' hcap =>
    exact ⟨drains_of_read hr, b :: chunk, rfl, by simp [received_of_read hr, Call.payload]⟩
  | case3 taken count w b chunk w' hr count' hcap ih =>
    obtain ⟨hcalls, bytes, hbytes, hreceived⟩ := ih
    refine ⟨(drains_of_read hr).trans hcalls, b :: chunk ++ bytes, ?_, ?_⟩
    · rw [hbytes, List.append_assoc]
    · rw [hreceived, received_of_read hr, List.append_assoc]
      simp [Call.payload]
  | case5 taken count w w' hr ih =>
    obtain ⟨hcalls, bytes, hbytes, hreceived⟩ := ih
    refine ⟨(drains_of_read hr).trans hcalls, bytes, hbytes, ?_⟩
    rw [hreceived, received_of_read hr]
    simp [Call.payload]

/-! ### Pipes and residues -/

namespace Child

variable (child : Child) (bytes : List UInt8) (stream : OutputStream)

@[simp] theorem pipe_withResidue (other : OutputStream) :
    (child.withResidue bytes stream).pipe other = child.pipe other := by
  cases stream <;> cases other <;> rfl

@[simp] theorem residue_withResidue :
    (child.withResidue bytes stream).residue stream = bytes := by cases stream <;> rfl

theorem residue_withResidue_of_ne {other : OutputStream} (h : other ≠ stream) :
    (child.withResidue bytes stream).residue other = child.residue other := by
  cases stream <;> cases other <;> first | rfl | exact absurd rfl h

@[simp] theorem residue_withoutPipe (other : OutputStream) :
    (child.withoutPipe stream).residue other = child.residue other := by
  cases stream <;> cases other <;> rfl

@[simp] theorem pipe_withoutPipe : (child.withoutPipe stream).pipe stream = none := by
  cases stream <;> rfl

theorem pipe_withoutPipe_of_ne {other : OutputStream} (h : other ≠ stream) :
    (child.withoutPipe stream).pipe other = child.pipe other := by
  cases stream <;> cases other <;> first | rfl | exact absurd rfl h

theorem pipe_withoutPipe_eq_or (other : OutputStream) :
    (child.withoutPipe stream).pipe other = none ∨
      (child.withoutPipe stream).pipe other = child.pipe other := by
  by_cases h : other = stream
  · subst h
    exact Or.inl (child.pipe_withoutPipe other)
  · exact Or.inr (child.pipe_withoutPipe_of_ne stream h)

@[simp] theorem status_withResidue : (child.withResidue bytes stream).status = child.status := by
  cases stream <;> rfl

@[simp] theorem status_withoutPipe : (child.withoutPipe stream).status = child.status := by
  cases stream <;> rfl

@[simp] theorem pid_withResidue : (child.withResidue bytes stream).pid = child.pid := by
  cases stream <;> rfl

@[simp] theorem pid_withoutPipe : (child.withoutPipe stream).pid = child.pid := by
  cases stream <;> rfl

@[simp] theorem leadsGroup_withResidue :
    (child.withResidue bytes stream).leadsGroup = child.leadsGroup := by
  cases stream <;> rfl

@[simp] theorem leadsGroup_withoutPipe :
    (child.withoutPipe stream).leadsGroup = child.leadsGroup := by
  cases stream <;> rfl

@[simp] theorem stdin_withResidue : (child.withResidue bytes stream).stdin = child.stdin := by
  cases stream <;> rfl

@[simp] theorem stdin_withoutPipe : (child.withoutPipe stream).stdin = child.stdin := by
  cases stream <;> rfl

@[simp] theorem pendingInput_withResidue :
    (child.withResidue bytes stream).pendingInput = child.pendingInput := by
  cases stream <;> rfl

@[simp] theorem pendingInput_withoutPipe :
    (child.withoutPipe stream).pendingInput = child.pendingInput := by
  cases stream <;> rfl

@[simp] theorem closeWhenFlushed_withResidue :
    (child.withResidue bytes stream).closeWhenFlushed = child.closeWhenFlushed := by
  cases stream <;> rfl

@[simp] theorem closeWhenFlushed_withoutPipe :
    (child.withoutPipe stream).closeWhenFlushed = child.closeWhenFlushed := by
  cases stream <;> rfl

/-! ### One read -/

/-- A read empties the residue, and at most it releases the pipe. -/
theorem readStream_child (host : Host ω) (w : ω) :
    (child.readStream host stream w).2.2.1 = child.withResidue [] stream ∨
      (child.readStream host stream w).2.2.1 =
        (child.withResidue [] stream).withoutPipe stream := by
  simp only [readStream, pipe_withResidue]
  split
  · exact Or.inl rfl
  · split
    · exact Or.inl rfl
    · exact Or.inr rfl
    · exact Or.inr rfl

@[simp] theorem residue_readStream (host : Host ω) (w : ω) :
    (child.readStream host stream w).2.2.1.residue stream = [] := by
  rcases child.readStream_child stream host w with h | h <;> simp [h]

theorem residue_readStream_of_ne (host : Host ω) (w : ω) {other : OutputStream}
    (hne : other ≠ stream) :
    (child.readStream host stream w).2.2.1.residue other = child.residue other := by
  rcases child.readStream_child stream host w with h | h <;>
    simp [h, residue_withResidue_of_ne _ _ _ hne]

theorem pipe_readStream_eq_or (host : Host ω) (w : ω) (other : OutputStream) :
    (child.readStream host stream w).2.2.1.pipe other = none ∨
      (child.readStream host stream w).2.2.1.pipe other = child.pipe other := by
  rcases child.readStream_child stream host w with h | h <;> rw [h]
  · exact Or.inr (child.pipe_withResidue _ _ _)
  · rw [← child.pipe_withResidue [] stream other]
    exact pipe_withoutPipe_eq_or _ _ _

@[simp] theorem status_readStream (host : Host ω) (w : ω) :
    (child.readStream host stream w).2.2.1.status = child.status := by
  rcases child.readStream_child stream host w with h | h <;> simp [h]

@[simp] theorem pid_readStream (host : Host ω) (w : ω) :
    (child.readStream host stream w).2.2.1.pid = child.pid := by
  rcases child.readStream_child stream host w with h | h <;> simp [h]

/-- A read gives the residue and what it receives. -/
theorem readStream_spec (host : Host ω) (w : ω × Log) :
    Only (Call.Drains (child.pipe stream)) w (child.readStream host.logged stream w).2.2.2 ∧
      ∃ bytes, (child.readStream host.logged stream w).2.1 = child.residue stream ++ bytes ∧
        received (child.pipe stream) (child.readStream host.logged stream w).2.2.2.2 =
          received (child.pipe stream) w.2 ++ bytes := by
  simp only [readStream, pipe_withResidue]
  cases hd : child.pipe stream with
  | none => exact ⟨.refl _ _, [], (List.append_nil _).symm, by simp⟩
  | some d =>
    have hspec := drain_spec host d (child.residue stream) 0 w
    have hclose (w : ω × Log) : Only (Call.Drains (some d)) w (host.logged.close d w) :=
      .one (.close d) rfl rfl
    have hreceived (w : ω × Log) :
        received (some d) (host.logged.close d w).2 = received (some d) w.2 :=
      Only.received_eq (.one (.close d) trivial rfl) fun _ h => Call.Tells.payload h _
    dsimp only
    generalize drain host.logged d (child.residue stream) 0 w = r at hspec ⊢
    obtain ⟨pause, bytes, w'⟩ := r
    obtain ⟨hcalls, more, hbytes, hmore⟩ := hspec
    cases pause with
    | later => exact ⟨hcalls, more, hbytes, hmore⟩
    | ended | failed cause =>
      exact ⟨hcalls.trans (hclose w'), more, hbytes, (hreceived w').trans hmore⟩

end Child

/-! ### What becomes of the bytes -/

def Apart (out : OutputStream → Option Descriptor) : Prop :=
  ∀ d, out .stdout = some d → out .stderr ≠ some d

theorem Apart.ne {out : OutputStream → Option Descriptor} (h : Apart out)
    {stream other : OutputStream} (hne : other ≠ stream) (d : Descriptor)
    (hd : out stream = some d) : out other ≠ some d := by
  intro ho
  cases stream <;> cases other
  · exact hne rfl
  · exact h d hd ho
  · exact h d ho hd
  · exact hne rfl

/-- Of the bytes received from each stream, those not `seen` are its residue. -/
structure Flow (out : OutputStream → Option Descriptor) (seen : OutputStream → List UInt8)
    (child : Child) (log : Log) : Prop where
  pipe : ∀ stream, child.pipe stream = none ∨ child.pipe stream = out stream
  received : ∀ stream, received (out stream) log = seen stream ++ child.residue stream

namespace Flow

variable {out : OutputStream → Option Descriptor} {seen : OutputStream → List UInt8}
  {child child' : Child} {w w' : ω × Log}

/-- At the start of a child nothing was received. -/
theorem start (child : Child) (hresidue : ∀ stream, child.residue stream = []) {log : Log}
    (hlog : ∀ pipe, Chaperone.received pipe log = []) :
    Flow child.pipe (fun _ => []) child log where
  pipe _ := Or.inr rfl
  received stream := by rw [hlog, hresidue]; rfl

/-- Calls that read nothing change nothing. -/
theorem quiet (h : Flow out seen child w.2) {P : Call → Prop} (hw : Only P w w')
    (hP : ∀ call, P call → ∀ pipe, call.payload pipe = []) : Flow out seen child w'.2 where
  pipe := h.pipe
  received stream := by
    rw [hw.received_eq fun call hcall => hP call hcall _]
    exact h.received stream

theorem tells (h : Flow out seen child w.2) (hchild : child'.withoutInput = child.withoutInput)
    (hw : Only Call.Tells w w') : Flow out seen child' w'.2 where
  pipe stream := by
    rw [Child.pipe_of_withoutInput hchild]
    exact h.pipe stream
  received stream := by
    rw [Child.residue_of_withoutInput hchild]
    exact (h.quiet hw fun _ hcall => hcall.payload).received stream

/-- Calls that drain one stream receive nothing from the other. -/
theorem received_of_ne (h : Flow out seen child w.2) (hout : Apart out)
    {stream other : OutputStream} (hne : other ≠ stream)
    (hw : Only (Call.Drains (child.pipe stream)) w w') :
    Chaperone.received (out other) w'.2 = Chaperone.received (out other) w.2 := by
  refine hw.received_eq fun call hcall => hcall.payload fun d hd => ?_
  rcases h.pipe stream with hp | hp
  · rw [hp] at hd
    cases hd
  · exact hout.ne hne d (hp ▸ hd)

/-- What a stream that is drained gives is received from its pipe. -/
theorem received_self (h : Flow out seen child w.2) {stream : OutputStream} {bytes : List UInt8}
    (hw : Only (Call.Drains (child.pipe stream)) w w')
    (hbytes : Chaperone.received (child.pipe stream) w'.2 =
      Chaperone.received (child.pipe stream) w.2 ++ bytes) :
    Chaperone.received (out stream) w'.2 = seen stream ++ (child.residue stream ++ bytes) := by
  rw [← List.append_assoc, ← h.received stream]
  rcases h.pipe stream with hp | hp
  · rw [hp] at hw hbytes
    obtain rfl : bytes = [] := by simpa using hbytes.symm
    rw [List.append_nil]
    exact hw.received_eq fun call hcall => hcall.payload fun d hd => by cases hd
  · rwa [hp] at hbytes

/-- **A read hands on the residue and what it receives.** -/
theorem readStream (h : Flow out seen child w.2) (hout : Apart out) (host : Host ω)
    (stream : OutputStream) :
    Flow out
      (Function.update seen stream
        (seen stream ++ (child.readStream host.logged stream w).2.1))
      (child.readStream host.logged stream w).2.2.1
      (child.readStream host.logged stream w).2.2.2.2 := by
  obtain ⟨hcalls, bytes, hbytes, hreceived⟩ := child.readStream_spec stream host w
  refine ⟨?_, ?_⟩
  · intro other
    rcases child.pipe_readStream_eq_or stream host.logged w other with hp | hp
    · exact Or.inl hp
    · rw [hp]
      exact h.pipe other
  · intro other
    by_cases hne : other = stream
    · subst hne
      rw [Function.update_self, Child.residue_readStream, List.append_nil, hbytes]
      exact h.received_self hcalls hreceived
    · rw [Function.update_of_ne hne, Child.residue_readStream_of_ne _ _ _ _ hne,
        h.received_of_ne hout hne hcalls]
      exact h.received other

end Flow

end Chaperone
