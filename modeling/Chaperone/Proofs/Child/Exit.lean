import Chaperone.Proofs.Child.Output

/-!
# What is seen of the end of a child

A question whether a child has ended makes one call, and its answer decides everything
(`tryWait_of_report`, `tryWait_of_silence`).  When the answer reports the end, the exit is recorded:
the status is that of the answer, all pipes are released, and what could be read from the output
pipes becomes the residue (`Flow.recordExit`).
-/

namespace Chaperone

variable {ω : Type}

/-- The status that an answer reports.  Of a child that somebody else has asked about the status is
lost. -/
def ReapResult.status? : ReapResult → Option ExitStatus
  | .ended word => some (.ofWaitWord word)
  | .running => none
  | .failed errno => if errno = Errno.noChild then some .lost else none

/-- What whoever asks is told when no end is reported. -/
def ReapResult.silence : ReapResult → Except SystemError (Option ExitStatus)
  | .failed errno => .error (.os errno)
  | _ => .ok none

def reported (log : Log) : List ExitStatus := (asked log).filterMap (·.2.status?)

/-- How often an answer has reported no end. -/
def silences (log : Log) : Nat := ((asked log).filter fun p => p.2.status?.isNone).length

theorem reported_append_of_asked {log log' : Log} {pid : Pid} {answer : ReapResult}
    (h : asked log' = asked log ++ [(pid, answer)]) :
    reported log' = reported log ++ answer.status?.toList := by
  rw [reported, h, List.filterMap_append, reported]
  cases hr : answer.status? <;> simp [hr]

theorem reported_of_asked {log log' : Log} (h : asked log' = asked log) :
    reported log' = reported log := by rw [reported, h, reported]

theorem silences_of_asked {log log' : Log} (h : asked log' = asked log) :
    silences log' = silences log := by rw [silences, h, silences]

theorem silences_succ_of_asked {log log' : Log} {pid : Pid} {answer : ReapResult}
    (h : asked log' = asked log ++ [(pid, answer)]) (hr : answer.status? = none) :
    silences log' = silences log + 1 := by
  rw [silences, h, List.filter_append, List.length_append, silences]
  simp [hr]

namespace Child

/-! ### Recording the exit -/

section
variable (host : Host ω) (child : Child) (stream : OutputStream) (w : ω)

theorem keepRest_child :
    ∃ bytes, (child.keepRest host stream w).1 = child.withResidue bytes stream := by
  simp only [keepRest]
  split
  · exact ⟨child.residue stream, by cases stream <;> rfl⟩
  · exact ⟨_, rfl⟩

@[simp] theorem pipe_keepRest (other : OutputStream) :
    (child.keepRest host stream w).1.pipe other = child.pipe other := by
  obtain ⟨bytes, h⟩ := child.keepRest_child host stream w
  rw [h, pipe_withResidue]

@[simp] theorem pid_keepRest : (child.keepRest host stream w).1.pid = child.pid := by
  obtain ⟨bytes, h⟩ := child.keepRest_child host stream w
  rw [h, pid_withResidue]

theorem releasePipe_child :
    (child.releasePipe host stream w).1 = child.withoutPipe stream := by
  simp only [releasePipe]
  split
  · next h => cases stream <;> cases child <;> simp_all [withoutPipe, pipe]
  · rfl

/-- Every pipe is released and the status is the one that was reported. -/
theorem recordExit_child (status : ExitStatus) :
    (child.recordExit host status w).1.status = some status ∧
      (child.recordExit host status w).1.pid = child.pid ∧
      ∀ stream, (child.recordExit host status w).1.pipe stream = none := by
  simp only [recordExit, closeStdin, releasePipe_child]
  refine ⟨trivial, by simp, ?_⟩
  intro stream
  cases stream <;> rfl

/-! ### Asking for the end -/

theorem tryWait_of_report (h : child.status = none) {status : ExitStatus}
    (hr : (host.reap child.pid w).1.status? = some status) :
    child.tryWait host w =
      (.ok (some status), child.recordExit host status (host.reap child.pid w).2) := by
  simp only [tryWait, h]
  generalize host.reap child.pid w = r at hr ⊢
  obtain ⟨result, w'⟩ := r
  cases result with
  | ended word => cases hr; rfl
  | running => cases hr
  | failed errno =>
    simp only [ReapResult.status?] at hr
    split at hr
    · next herrno =>
      cases hr
      simp only [herrno, if_true]
    · cases hr

theorem tryWait_of_silence (h : child.status = none)
    (hr : (host.reap child.pid w).1.status? = none) :
    child.tryWait host w =
      ((host.reap child.pid w).1.silence, child, (host.reap child.pid w).2) := by
  simp only [tryWait, h]
  generalize host.reap child.pid w = r at hr ⊢
  obtain ⟨result, w'⟩ := r
  cases result with
  | ended word => cases hr
  | running => rfl
  | failed errno =>
    simp only [ReapResult.status?] at hr
    split at hr
    · cases hr
    · next herrno => simp only [herrno, if_false, ReapResult.silence]

theorem wait_of_report (h : child.status = none) {status : ExitStatus}
    (hr : (ReapResult.ofAwait (host.await child.pid w).1).status? = some status) :
    child.wait host w = (.ok status, child.recordExit host status (host.await child.pid w).2) := by
  simp only [wait, h]
  generalize host.await child.pid w = r at hr ⊢
  obtain ⟨result, w'⟩ := r
  cases result with
  | ok word => cases hr; rfl
  | error errno =>
    simp only [ReapResult.ofAwait, ReapResult.status?] at hr
    split at hr
    · next herrno =>
      cases hr
      simp only [herrno, if_true]
    · cases hr

theorem wait_of_failure (h : child.status = none)
    (hr : (ReapResult.ofAwait (host.await child.pid w).1).status? = none) :
    ∃ cause, child.wait host w = (.error cause, child, (host.await child.pid w).2) := by
  simp only [wait, h]
  generalize host.await child.pid w = r at hr ⊢
  obtain ⟨result, w'⟩ := r
  cases result with
  | ok word => cases hr
  | error errno =>
    simp only [ReapResult.ofAwait, ReapResult.status?] at hr
    split at hr
    · cases hr
    · next herrno => exact ⟨.os errno, by simp only [herrno, if_false]⟩

/-- What a look can do. -/
theorem tryWait_cases :
    (∃ status, child.status = some status ∧
      child.tryWait host w = (.ok (some status), child, w)) ∨
    (∃ status, child.status = none ∧ (host.reap child.pid w).1.status? = some status ∧
      child.tryWait host w =
        (.ok (some status), child.recordExit host status (host.reap child.pid w).2)) ∨
    child.status = none ∧ (host.reap child.pid w).1.status? = none ∧
      child.tryWait host w =
        ((host.reap child.pid w).1.silence, child, (host.reap child.pid w).2) := by
  cases hstatus : child.status with
  | some status =>
    refine Or.inl ⟨status, rfl, ?_⟩
    simp only [tryWait, hstatus]
  | none =>
    cases hr : (host.reap child.pid w).1.status? with
    | some status =>
      exact Or.inr (Or.inl ⟨status, rfl, rfl, child.tryWait_of_report host w hstatus hr⟩)
    | none => exact Or.inr (Or.inr ⟨rfl, rfl, child.tryWait_of_silence host w hstatus hr⟩)

/-- What waiting for the end can do. -/
theorem wait_cases :
    (∃ status, child.status = some status ∧ child.wait host w = (.ok status, child, w)) ∨
    (∃ status, child.status = none ∧
      (ReapResult.ofAwait (host.await child.pid w).1).status? = some status ∧
      child.wait host w = (.ok status, child.recordExit host status (host.await child.pid w).2)) ∨
    child.status = none ∧ (ReapResult.ofAwait (host.await child.pid w).1).status? = none ∧
      ∃ cause, child.wait host w = (.error cause, child, (host.await child.pid w).2) := by
  cases hstatus : child.status with
  | some status =>
    refine Or.inl ⟨status, rfl, ?_⟩
    simp only [wait, hstatus]
  | none =>
    cases hr : (ReapResult.ofAwait (host.await child.pid w).1).status? with
    | some status =>
      exact Or.inr (Or.inl ⟨status, rfl, rfl, child.wait_of_report host w hstatus hr⟩)
    | none => exact Or.inr (Or.inr ⟨rfl, rfl, child.wait_of_failure host w hstatus hr⟩)

/-- A status that a look gives was recorded. -/
theorem recorded_of_tryWait (h : child.status = none) {status : ExitStatus} {child' : Child}
    {w' : ω}
    (ht : child.tryWait host w = (.ok (some status), child', w')) :
    child.recordExit host status (host.reap child.pid w).2 = (child', w') := by
  cases hr : (host.reap child.pid w).1.status? with
  | some seen =>
    rw [child.tryWait_of_report host w h hr] at ht
    obtain ⟨hseen, hrecorded⟩ := Prod.mk.inj ht
    obtain rfl : seen = status := by simpa using hseen
    exact hrecorded
  | none =>
    rw [child.tryWait_of_silence host w h hr] at ht
    have hanswer := congrArg Prod.fst ht
    cases hresult : (host.reap child.pid w).1 <;> simp [hresult, ReapResult.silence] at hanswer

/-- A status that waiting gives was recorded. -/
theorem recorded_of_wait (h : child.status = none) {status : ExitStatus} {child' : Child} {w' : ω}
    (ht : child.wait host w = (.ok status, child', w')) :
    child.recordExit host status (host.await child.pid w).2 = (child', w') := by
  cases hr : (ReapResult.ofAwait (host.await child.pid w).1).status? with
  | some seen =>
    rw [child.wait_of_report host w h hr] at ht
    obtain ⟨hseen, hrecorded⟩ := Prod.mk.inj ht
    obtain rfl : seen = status := by simpa using hseen
    exact hrecorded
  | none =>
    obtain ⟨cause, hwait⟩ := child.wait_of_failure host w h hr
    rw [hwait] at ht
    cases ht

end

/-! ### The calls -/

/-- Keeping the rest of a stream adds to the residue what is received. -/
theorem keepRest_spec (host : Host ω) (child : Child) (stream : OutputStream) (w : ω × Log) :
    Only (Call.Drains (child.pipe stream)) w (child.keepRest host.logged stream w).2 ∧
      ∃ bytes, (child.keepRest host.logged stream w).1 =
          child.withResidue (child.residue stream ++ bytes) stream ∧
        received (child.pipe stream) (child.keepRest host.logged stream w).2.2 =
          received (child.pipe stream) w.2 ++ bytes := by
  simp only [keepRest]
  cases hd : child.pipe stream with
  | none => exact ⟨.refl _ _, [], by cases stream <;> simp [withResidue, residue], by simp⟩
  | some d =>
    obtain ⟨hcalls, bytes, hbytes, hreceived⟩ := drain_spec host d (child.residue stream) 0 w
    exact ⟨hcalls, bytes, congrArg (child.withResidue · stream) hbytes, hreceived⟩

theorem tells_releasePipe (host : Host ω) (child : Child) (stream : OutputStream) (w : ω × Log) :
    Only Call.Tells w (child.releasePipe host.logged stream w).2 := by
  simp only [releasePipe]
  split
  · exact .refl _ _
  · next d _ => exact .one (.close d) trivial rfl

/-- Recording the exit only reads from pipes and releases them. -/
theorem empties_recordExit (host : Host ω) (status : ExitStatus) (child : Child) (w : ω × Log) :
    Only Call.Empties w (child.recordExit host.logged status w).2 := by
  have hkeep (child : Child) (stream : OutputStream) (w : ω × Log) :
      Only Call.Empties w (child.keepRest host.logged stream w).2 :=
    (child.keepRest_spec host stream w).1.imp fun _ h => h.empties
  have hrelease (child : Child) (stream : OutputStream) (w : ω × Log) :
      Only Call.Empties w (child.releasePipe host.logged stream w).2 := by
    simp only [releasePipe]
    split
    · exact .refl _ _
    · next d _ => exact .one (.close d) trivial rfl
  exact ((hkeep _ _ _).trans (hkeep _ _ _)).trans
    (((hrelease _ _ _).trans (hrelease _ _ _)).trans (empties_closeStdin host _ _))

/-- Recording the exit asks nothing. -/
theorem asked_recordExit (host : Host ω) (status : ExitStatus) (child : Child) (w : ω × Log) :
    asked (child.recordExit host.logged status w).2.2 = asked w.2 := by
  have hkeep (child : Child) (stream : OutputStream) (w : ω × Log) :
      asked (child.keepRest host.logged stream w).2.2 = asked w.2 :=
    (child.keepRest_spec host stream w).1.asked_eq fun _ h => h.question?
  have hrelease (child : Child) (stream : OutputStream) (w : ω × Log) :
      asked (child.releasePipe host.logged stream w).2.2 = asked w.2 :=
    (tells_releasePipe host child stream w).asked_eq fun _ h => h.question?
  have hclose (child : Child) (w : ω × Log) :
      asked (child.closeStdin host.logged w).2.2 = asked w.2 :=
    (tells_closeStdin host child w).asked_eq fun _ h => h.question?
  simp only [recordExit, hclose, hrelease, hkeep]

/-- A wait for pipes that fails is a call that fails. -/
theorem fails_of_waitForIo {host : Host ω} {milliseconds : Nat} {child : Child} {w w' : ω × Log}
    {cause : SystemError}
    (h : child.waitForIo host.logged milliseconds w = (.error cause, w')) :
    ∃ call ∈ w'.2, call.fails := by
  simp only [waitForIo] at h
  split at h
  · cases h
  · split at h
    · cases h
    · next errno w'' hwatch =>
      split at h
      · cases h
      · next herrno =>
        obtain ⟨-, rfl⟩ := Prod.mk.inj h
        obtain ⟨hresult, rfl⟩ := Prod.mk.inj hwatch
        refine ⟨.watch child.watched (min milliseconds 0x7FFFFFFF) (.error errno), ?_,
          bne_iff_ne.mpr herrno⟩
        rw [← hresult]
        exact List.mem_append_right _ (List.mem_singleton_self _)

theorem waits_waitForIo (host : Host ω) (milliseconds : Nat) (child : Child) (w : ω × Log) :
    Only Call.Waits w (child.waitForIo host.logged milliseconds w).2 := by
  have hwatch (pipes : List (Descriptor × Interest)) (limit : Nat) :
      Only Call.Waits w (host.logged.watch pipes limit w).2 :=
    .one (.watch pipes limit _) trivial rfl
  simp only [waitForIo]
  split
  · exact .one (.sleep _) trivial rfl
  · split
    · next h => rw [← congrArg Prod.snd h]; exact hwatch _ _
    · next h =>
      rw [apply_ite Prod.snd, ite_self, ← congrArg Prod.snd h]
      exact hwatch _ _

end Child

namespace Flow

variable {out : OutputStream → Option Descriptor} {seen : OutputStream → List UInt8}
  {child : Child} {w w' : ω × Log}

theorem keepRest (h : Flow out seen child w.2) (hout : Apart out) (host : Host ω)
    (stream : OutputStream) :
    Flow out seen (child.keepRest host.logged stream w).1
      (child.keepRest host.logged stream w).2.2 := by
  obtain ⟨hcalls, bytes, hchild, hreceived⟩ := child.keepRest_spec host stream w
  refine ⟨fun other => by rw [Child.pipe_keepRest]; exact h.pipe other, ?_⟩
  intro other
  rw [hchild]
  by_cases hne : other = stream
  · subst hne
    rw [Child.residue_withResidue]
    exact h.received_self hcalls hreceived
  · rw [Child.residue_withResidue_of_ne _ _ _ hne, h.received_of_ne hout hne hcalls]
    exact h.received other

theorem releasePipe (h : Flow out seen child w.2) (host : Host ω) (stream : OutputStream) :
    Flow out seen (child.releasePipe host.logged stream w).1
      (child.releasePipe host.logged stream w).2.2 := by
  rw [Child.releasePipe_child]
  refine ⟨?_, ?_⟩
  · intro other
    rcases child.pipe_withoutPipe_eq_or stream other with hp | hp
    · exact Or.inl hp
    · rw [hp]
      exact h.pipe other
  · intro other
    rw [Child.residue_withoutPipe, ← h.received other]
    exact (Child.tells_releasePipe host child stream w).received_eq fun _ hcall => hcall.payload _

/-- **What is received when the exit is recorded is kept.** -/
theorem recordExit (h : Flow out seen child w.2) (hout : Apart out) (host : Host ω)
    (status : ExitStatus) :
    Flow out seen (child.recordExit host.logged status w).1
      (child.recordExit host.logged status w).2.2 := by
  have hkept := (h.keepRest hout host .stdout).keepRest hout host .stderr
  have hreleased := (hkept.releasePipe host .stdout).releasePipe host .stderr
  simp only [Child.recordExit]
  generalize Child.releasePipe host.logged .stderr _ _ = released at hreleased ⊢
  have hclosed := hreleased.tells (Child.withoutInput_closeStdin host.logged released.1 released.2)
    (Child.tells_closeStdin host released.1 released.2)
  exact ⟨hclosed.pipe, hclosed.received⟩

theorem tryWait (h : Flow out seen child w.2) (hout : Apart out) (host : Host ω)
    (hstatus : child.status = none) :
    Flow out seen (child.tryWait host.logged w).2.1 (child.tryWait host.logged w).2.2.2 := by
  have hasked : Flow out seen child (host.logged.reap child.pid w).2.2 :=
    h.quiet (.one (.reap child.pid _) trivial rfl) fun _ hcall => Call.Asks.payload hcall
  cases hr : (host.logged.reap child.pid w).1.status? with
  | some status =>
    rw [child.tryWait_of_report host.logged w hstatus hr]
    exact hasked.recordExit hout host status
  | none =>
    rw [child.tryWait_of_silence host.logged w hstatus hr]
    exact hasked

theorem wait (h : Flow out seen child w.2) (hout : Apart out) (host : Host ω)
    (hstatus : child.status = none) :
    Flow out seen (child.wait host.logged w).2.1 (child.wait host.logged w).2.2.2 := by
  have hawaited : Flow out seen child (host.logged.await child.pid w).2.2 :=
    h.quiet (.one (.await child.pid _) trivial rfl) fun _ hcall => Call.Asks.payload hcall
  cases hr : (ReapResult.ofAwait (host.logged.await child.pid w).1).status? with
  | some status =>
    rw [child.wait_of_report host.logged w hstatus hr]
    exact hawaited.recordExit hout host status
  | none =>
    obtain ⟨cause, ha⟩ := child.wait_of_failure host.logged w hstatus hr
    rw [ha]
    exact hawaited

end Flow

end Chaperone
