import Chaperone.Proofs.Child.Dealings
import Chaperone.Proofs.Child.Exit
import Chaperone.Proofs.Child.Flush
import Chaperone.Proofs.Child.Start
import Mathlib

/-!
# What holds of a child at any time

Whatever is done with a child that was started, its fields fit together (`Child.Sound`), it only
ever loses what it has (`Child.Later`), and once its exit has been seen nothing but reading the
residues changes it (`Child.Settled`).

* `Child.Evolves.perform`: one operation keeps a child sound and makes it a later one.
* `Child.Sound.settled`, `Child.Sound.givesOnce`: what comes after the exit.
* `Child.deal_sound`: all this holds whatever was done with a child since its start.
-/

namespace Chaperone

variable {ω : Type}

namespace Child

structure Sound (child : Child) : Prop where
  /-- Once the exit has been seen, no pipe is left and no input waits. -/
  released : child.exited → child.stdin = none ∧ (∀ stream, child.pipe stream = none) ∧
    child.pendingInput = [] ∧ child.closeWhenFlushed = false
  /-- Before that, nothing has been kept. -/
  unread : child.exited = false → ∀ stream, child.residue stream = []
  /-- Input waits for an open pipe only. -/
  queued : child.pendingInput ≠ [] → child.stdinOpen
  /-- The end of the input is put off only while input waits. -/
  deferred : child.closeWhenFlushed → child.pendingInput ≠ []

/-- A child and what may become of it: pipes are released and stay so, and a status is seen and
stays. -/
structure Later (child later : Child) : Prop where
  pid : later.pid = child.pid
  leadsGroup : later.leadsGroup = child.leadsGroup
  stdin : later.stdin = none ∨ later.stdin = child.stdin
  pipe : ∀ stream, later.pipe stream = none ∨ later.pipe stream = child.pipe stream
  status : ∀ status, child.status = some status → later.status = some status

namespace Later

variable {child child' child'' : Child}

theorem refl (child : Child) : Later child child :=
  ⟨rfl, rfl, Or.inr rfl, fun _ => Or.inr rfl, fun _ h => h⟩

theorem trans (h : Later child child') (g : Later child' child'') : Later child child'' where
  pid := g.pid.trans h.pid
  leadsGroup := g.leadsGroup.trans h.leadsGroup
  stdin := by
    rcases g.stdin with hg | hg
    · exact Or.inl hg
    · rw [hg]
      exact h.stdin
  pipe stream := by
    rcases g.pipe stream with hg | hg
    · exact Or.inl hg
    · rw [hg]
      exact h.pipe stream
  status _ hs := g.status _ (h.status _ hs)

/-- A change of the input. -/
theorem of_withoutInput (h : child'.withoutInput = child.withoutInput)
    (hstdin : child'.stdin = none ∨ child'.stdin = child.stdin) : Later child child' where
  pid := pid_of_withoutInput h
  leadsGroup := congrArg (·.leadsGroup) h
  stdin := hstdin
  pipe stream := Or.inr (pipe_of_withoutInput h stream)
  status _ hs := (status_of_withoutInput h).trans hs

end Later

/-! ### One operation -/

section
variable {child child' : Child} {d : Descriptor} {result : Except WriteError Unit} {calls : Log}

/-- A flush leaves a child whose fields fit, also when the end of the input was asked for just
now. -/
theorem Sound.of_flushed (h : Flushed child d calls result child') (hd : child.stdin = some d)
    (hexited : child.exited = false) (hunread : ∀ stream, child.residue stream = []) :
    child'.Sound := by
  have hstatus : child'.exited = child.exited :=
    congrArg Option.isSome (status_of_withoutInput h.withoutInput)
  have hresidue (stream : OutputStream) : child'.residue stream = [] := by
    rw [residue_of_withoutInput h.withoutInput]
    exact hunread stream
  refine ⟨?_, fun _ => hresidue, ?_, ?_⟩
  · intro hexited'
    rw [hstatus, hexited] at hexited'
    cases hexited'
  · intro hne
    cases h with
    | waits => exact Option.isSome_iff_exists.mpr ⟨d, hd⟩
    | empties | ends | fails => exact absurd rfl hne
  · intro hflag
    cases h with
    | waits h hne => exact hne
    | empties h hopen => cases hopen.symm.trans hflag
    | ends | fails => cases hflag

/-- With the input closed, nothing waits. -/
theorem Sound.idle (h : child.Sound) (hd : child.stdin = none) :
    child.pendingInput = [] ∧ child.closeWhenFlushed = false := by
  have hpending : child.pendingInput = [] := by
    by_contra hne
    have hopen := h.queued hne
    simp [stdinOpen, hd] at hopen
  refine ⟨hpending, ?_⟩
  cases hflag : child.closeWhenFlushed with
  | false => rfl
  | true => exact absurd hpending (h.deferred hflag)

theorem flushStdin_of_idle (host : Host ω) (hpending : child.pendingInput = [])
    (hflag : child.closeWhenFlushed = false) (w : ω) :
    child.flushStdin host w = (.ok (), child, w) := by
  rw [flushStdin]
  split
  · rw [if_neg (by simp [hflag])]
  · next hp => cases hpending.symm.trans hp

theorem Sound.not_exited (h : child.Sound) (hd : child.stdin = some d) : child.exited = false := by
  cases hexited : child.exited with
  | false => rfl
  | true => cases hd.symm.trans (h.released hexited).1

theorem Sound.withoutInput (h : child.Sound) : child.withoutInput.Sound where
  released hexited := ⟨rfl, (h.released hexited).2.1, rfl, rfl⟩
  unread := h.unread
  queued hne := absurd rfl hne
  deferred hflag := by cases hflag

/-- A read keeps the input. -/
theorem input_readStream (host : Host ω) (child : Child) (stream : OutputStream) (w : ω) :
    (child.readStream host stream w).2.2.1.stdin = child.stdin ∧
      (child.readStream host stream w).2.2.1.pendingInput = child.pendingInput ∧
      (child.readStream host stream w).2.2.1.closeWhenFlushed = child.closeWhenFlushed := by
  rcases child.readStream_child stream host w with h | h <;> simp [h]

@[simp] theorem leadsGroup_readStream (host : Host ω) (child : Child) (stream : OutputStream)
    (w : ω) : (child.readStream host stream w).2.2.1.leadsGroup = child.leadsGroup := by
  rcases child.readStream_child stream host w with h | h <;> simp [h]

/-- Nothing of the input is left when the exit was recorded. -/
theorem input_recordExit (host : Host ω) (status : ExitStatus) (child : Child) (w : ω) :
    (child.recordExit host status w).1.stdin = none ∧
      (child.recordExit host status w).1.pendingInput = [] ∧
      (child.recordExit host status w).1.closeWhenFlushed = false := ⟨rfl, rfl, rfl⟩

@[simp] theorem leadsGroup_recordExit (host : Host ω) (status : ExitStatus) (child : Child)
    (w : ω) : (child.recordExit host status w).1.leadsGroup = child.leadsGroup := by
  have hkeep (child : Child) (stream : OutputStream) (w : ω) :
      (child.keepRest host stream w).1.leadsGroup = child.leadsGroup := by
    obtain ⟨bytes, h⟩ := child.keepRest_child host stream w
    rw [h, leadsGroup_withResidue]
  simp only [recordExit, closeStdin, releasePipe_child, leadsGroup_withoutPipe, hkeep]

end

/-! ### What one operation does -/

def Evolves (child later : Child) : Prop := child.Sound → later.Sound ∧ Later child later

namespace Evolves

variable {child child' child'' : Child}

theorem refl (child : Child) : Evolves child child := fun h => ⟨h, .refl child⟩

theorem trans (h : Evolves child child') (g : Evolves child' child'') : Evolves child child'' := by
  intro hsound
  obtain ⟨hsound', hlater⟩ := h hsound
  obtain ⟨hsound'', hlater'⟩ := g hsound'
  exact ⟨hsound'', hlater.trans hlater'⟩

theorem closeStdin (host : Host ω) (child : Child) (w : ω) :
    Evolves child (child.closeStdin host w).1 :=
  fun h => ⟨h.withoutInput, .of_withoutInput rfl (Or.inl rfl)⟩

theorem flushStdin (host : Host ω) (child : Child) (w : ω × Log) :
    Evolves child (child.flushStdin host.logged w).2.1 := by
  intro h
  cases hd : child.stdin with
  | none =>
    obtain ⟨hpending, hflag⟩ := h.idle hd
    rw [flushStdin_of_idle host.logged hpending hflag]
    exact refl child h
  | some d =>
    obtain ⟨calls, -, hflushed⟩ := flushStdin_spec host child w hd
    have hexited := h.not_exited hd
    exact ⟨.of_flushed hflushed hd hexited (h.unread hexited),
      .of_withoutInput hflushed.withoutInput hflushed.stdin⟩

theorem write (host : Host ω) (child : Child) (data : List UInt8) (close : Bool) (w : ω × Log) :
    Evolves child (child.write host.logged data close w).2.1 := by
  intro h
  simp only [Child.write]
  split
  · exact refl child h
  · next hrefused =>
    simp only [Bool.or_eq_true, Bool.not_eq_true', not_or, Bool.not_eq_true,
      Bool.not_eq_false] at hrefused
    obtain ⟨hexited, hopen⟩ := hrefused
    obtain ⟨d, hd⟩ := Option.isSome_iff_exists.mp hopen
    -- The child that is flushed need not be sound: its end may be due with nothing to write.
    obtain ⟨calls, -, hflushed⟩ := flushStdin_spec host
      { child with
        pendingInput := child.pendingInput ++ data
        closeWhenFlushed := child.closeWhenFlushed || close } w hd
    exact ⟨.of_flushed hflushed hd hexited (h.unread hexited),
      .of_withoutInput hflushed.withoutInput hflushed.stdin⟩

theorem readStream (host : Host ω) (child : Child) (stream : OutputStream) (w : ω) :
    Evolves child (child.readStream host stream w).2.2.1 := by
  intro h
  obtain ⟨hstdin, hpending, hflag⟩ := input_readStream host child stream w
  have hstatus := child.status_readStream stream host w
  have hpipe := child.pipe_readStream_eq_or stream host w
  refine ⟨⟨?_, ?_, ?_, ?_⟩, ⟨child.pid_readStream stream host w, leadsGroup_readStream ..,
    Or.inr hstdin, hpipe, fun _ hs => hstatus.trans hs⟩⟩
  · intro hexited
    rw [exited, hstatus] at hexited
    obtain ⟨hno, hpipes, hrest⟩ := h.released hexited
    refine ⟨hstdin.trans hno, ?_, hpending.trans hrest.1, hflag.trans hrest.2⟩
    intro other
    rcases hpipe other with hp | hp
    · exact hp
    · exact hp.trans (hpipes other)
  · intro hexited other
    rw [exited, hstatus] at hexited
    by_cases hne : other = stream
    · rw [hne, residue_readStream]
    · rw [residue_readStream_of_ne _ _ _ _ hne]
      exact h.unread hexited other
  · rw [hpending, stdinOpen, hstdin]
    exact h.queued
  · rw [hflag, hpending]
    exact h.deferred

theorem recordExit (host : Host ω) (status : ExitStatus) {child : Child}
    (hstatus : child.status = none) (w : ω) :
    Evolves child (child.recordExit host status w).1 := by
  intro _
  obtain ⟨hrecorded, hpid, hpipes⟩ := child.recordExit_child host w status
  obtain ⟨hstdin, hpending, hflag⟩ := input_recordExit host status child w
  refine ⟨⟨fun _ => ⟨hstdin, hpipes, hpending, hflag⟩, ?_, ?_, ?_⟩, ⟨hpid,
    leadsGroup_recordExit .., Or.inl hstdin, fun stream => Or.inl (hpipes stream), ?_⟩⟩
  · intro hexited
    rw [exited, hrecorded] at hexited
    cases hexited
  · intro hne
    exact absurd hpending hne
  · intro hclose
    cases hflag.symm.trans hclose
  · intro s hs
    cases hstatus.symm.trans hs

theorem tryWait (host : Host ω) (child : Child) (w : ω) :
    Evolves child (child.tryWait host w).2.1 := by
  obtain ⟨status, -, h⟩ | ⟨status, hstatus, -, h⟩ | ⟨-, -, h⟩ := child.tryWait_cases host w
  · rw [h]
    exact refl child
  · rw [h]
    exact recordExit host status hstatus _
  · rw [h]
    exact refl child

theorem wait (host : Host ω) (child : Child) (w : ω) : Evolves child (child.wait host w).2.1 := by
  obtain ⟨status, -, h⟩ | ⟨status, hstatus, -, h⟩ | ⟨-, -, cause, h⟩ := child.wait_cases host w
  · rw [h]
    exact refl child
  · rw [h]
    exact recordExit host status hstatus _
  · rw [h]
    exact refl child

theorem terminateWithTimeout (host : Host ω) (child : Child) (fuel grace : Nat) (w : ω) :
    Evolves child (child.terminateWithTimeout host fuel grace w).2.1 :=
  terminateWithTimeout_rel host (R := fun m m' => Evolves m.1 m'.1) (fun m => refl m.1)
    (fun h g => h.trans g) (fun child _ _ => refl child) (fun child w => tryWait host child w)
    (fun child _ => refl child) (fun child _ _ => refl child) fuel grace child w

theorem perform (host : Host ω) (child : Child) (w : ω × Log) (operation : Operation ω) :
    Evolves child (child.perform host w operation).2.1 := by
  cases operation with
  | write data close => exact write host child data close w
  | flush => exact flushStdin host child w
  | closeStdin => exact closeStdin host.logged child w
  | read stream => exact readStream host.logged child stream w
  | tryWait => exact tryWait host.logged child w
  | wait => exact wait host.logged child w
  | waitForIo | terminate | elsewhere => exact refl child
  | terminateWithTimeout fuel grace => exact terminateWithTimeout host.logged child fuel grace w

/-- **Whatever is done with a child whose fields fit, they still do.** -/
theorem deal (host : Host ω) (child : Child) (w : ω × Log) (operations : List (Operation ω)) :
    Evolves child (child.deal host w operations).child := by
  induction operations generalizing child w with
  | nil => exact refl child
  | cons operation rest ih => exact (perform host child w operation).trans (ih _ _)

end Evolves

/-! ### After the exit -/

structure Settled (host : Host ω) (status : ExitStatus) (child : Child) : Prop where
  recorded : child.status = some status
  tryWait : ∀ w, child.tryWait host w = (.ok (some status), child, w)
  wait : ∀ w, child.wait host w = (.ok status, child, w)
  write : ∀ data close w,
    child.write host data close w = (.error (.closed child.pid), child, w)
  flush : ∀ w, child.flushStdin host w = (.ok (), child, w)
  read : ∀ stream w, child.readStream host stream w =
    (.ok .closed, child.residue stream, child.withResidue [] stream, w)

theorem Sound.settled {child : Child} (h : child.Sound) {status : ExitStatus}
    (hstatus : child.status = some status) (host : Host ω) : child.Settled host status := by
  have hexited : child.exited = true := by rw [exited, hstatus]; rfl
  obtain ⟨-, hpipes, hpending, hflag⟩ := h.released hexited
  refine ⟨hstatus, ?_, ?_, ?_, flushStdin_of_idle host hpending hflag, ?_⟩
  · intro w
    simp only [tryWait, hstatus]
  · intro w
    simp only [wait, hstatus]
  · intro data close w
    simp only [write, hexited, Bool.true_or, if_true]
  · intro stream w
    simp only [readStream, pipe_withResidue, hpipes]

end Child

def Answer.read? (stream : OutputStream) :
    Answer → Option (Except SystemError StreamState × List UInt8)
  | .read other result bytes => if other = stream then some (result, bytes) else none
  | _ => none

def Dealings.reads (dealings : Dealings ω) (stream : OutputStream) :
    List (Except SystemError StreamState × List UInt8) :=
  dealings.past.filterMap fun deed => deed.answer.read? stream

/-- What is read from a stream from which nothing more comes: what was kept, once, and then only
that it is closed. -/
def GivesOnce (kept : List UInt8) : List (Except SystemError StreamState × List UInt8) → Prop
  | [] => True
  | first :: rest => first = (.ok .closed, kept) ∧ ∀ read ∈ rest, read = (.ok .closed, [])

/-- When nothing was kept, nothing is ever read. -/
theorem GivesOnce.nothing {reads : List (Except SystemError StreamState × List UInt8)}
    (h : GivesOnce [] reads) : ∀ read ∈ reads, read = (.ok .closed, []) := by
  cases reads with
  | nil =>
    intro read hread
    cases hread
  | cons first rest => exact List.forall_mem_cons.mpr h

namespace Child

theorem terminateWithTimeout_of_exited (host : Host ω) {child : Child} {status : ExitStatus}
    (hstatus : child.status = some status) (fuel grace : Nat) (w : ω) :
    (child.terminateWithTimeout host fuel grace w).2.1 = child := by
  refine terminateWithTimeout_rel host (R := fun m m' => m.1.status = some status → m'.1 = m.1)
    (fun _ _ => rfl) ?_ (fun _ _ _ _ => rfl) ?_ (fun _ _ _ => rfl) (fun _ _ _ _ => rfl)
    fuel grace child w hstatus
  · intro m m' m'' h g hs
    have hsame := h hs
    exact (g (hsame ▸ hs)).trans hsame
  · intro child w hs
    have hs : child.status = some status := hs
    simp only [tryWait, hs]

/-- Once the exit has been seen, only a read changes a residue. -/
theorem Sound.read?_perform {child : Child} (h : child.Sound) {status : ExitStatus}
    (hstatus : child.status = some status) (host : Host ω) (w : ω × Log) (operation : Operation ω)
    (stream : OutputStream) :
    let after := child.perform host w operation
    after.1.read? stream = none ∧ after.2.1.residue stream = child.residue stream ∨
      after.1.read? stream = some (.ok .closed, child.residue stream) ∧
        after.2.1.residue stream = [] := by
  have hsettled := h.settled hstatus host.logged
  cases operation with
  | write data close =>
    simp only [perform, hsettled.write]
    exact Or.inl ⟨rfl, trivial⟩
  | flush =>
    simp only [perform, hsettled.flush]
    exact Or.inl ⟨rfl, trivial⟩
  | closeStdin => exact Or.inl ⟨rfl, residue_of_withoutInput rfl stream⟩
  | read other =>
    simp only [perform, hsettled.read, Answer.read?]
    by_cases hne : other = stream
    · subst hne
      exact Or.inr ⟨if_pos rfl, residue_withResidue ..⟩
    · exact Or.inl ⟨if_neg hne, residue_withResidue_of_ne _ _ _ (Ne.symm hne)⟩
  | tryWait =>
    simp only [perform, hsettled.tryWait]
    exact Or.inl ⟨rfl, trivial⟩
  | wait =>
    simp only [perform, hsettled.wait]
    exact Or.inl ⟨rfl, trivial⟩
  | waitForIo | terminate | elsewhere => exact Or.inl ⟨rfl, rfl⟩
  | terminateWithTimeout fuel grace =>
    have hsame := terminateWithTimeout_of_exited host.logged hstatus fuel grace w
    exact Or.inl ⟨rfl, congrArg (residue · stream) hsame⟩

theorem reads_cons (host : Host ω) (child : Child) (w : ω × Log) (operation : Operation ω)
    (rest : List (Operation ω)) (stream : OutputStream) :
    (child.deal host w (operation :: rest)).reads stream =
      ((child.perform host w operation).1.read? stream).toList ++
        ((child.perform host w operation).2.1.deal host (child.perform host w operation).2.2
          rest).reads stream := by
  simp only [deal, Dealings.reads, List.filterMap_cons]
  cases (child.perform host w operation).1.read? stream <;> rfl

/-- **Once the exit has been seen, what was kept is read once**, and nothing else is. -/
theorem Sound.givesOnce {child : Child} (h : child.Sound) {status : ExitStatus}
    (hstatus : child.status = some status) (host : Host ω) (w : ω × Log)
    (operations : List (Operation ω)) (stream : OutputStream) :
    GivesOnce (child.residue stream) ((child.deal host w operations).reads stream) := by
  induction operations generalizing child w with
  | nil => trivial
  | cons operation rest ih =>
    obtain ⟨hsound, hlater⟩ := Evolves.perform host child w operation h
    have hread := h.read?_perform hstatus host w operation stream
    have hrest := ih hsound (hlater.status status hstatus) (child.perform host w operation).2.2
    rw [reads_cons]
    -- The first read takes the residue, and of an empty residue nothing is ever read.
    rcases hread with ⟨hanswer, hresidue⟩ | ⟨hanswer, hresidue⟩
    · rw [hanswer]
      rw [hresidue] at hrest
      exact hrest
    · rw [hanswer]
      rw [hresidue] at hrest
      exact ⟨rfl, hrest.nothing⟩

/-! ### When the exit is seen -/

/-- Every byte received so far was given or is kept, whatever is done next; and an operation that
sees the exit gives nothing. -/
theorem flow_perform {host : Host ω} {out : OutputStream → Option Descriptor}
    {seen : OutputStream → List UInt8} {child : Child} {w : ω × Log} (hout : Apart out)
    (h : Flow out seen child w.2) (operation : Operation ω) :
    let after := child.perform host w operation
    ∃ seen', Flow out seen' after.2.1 after.2.2.2 ∧
      (seen' = seen ∨ after.2.1.status = child.status) := by
  have hlook (child : Child) (w : ω × Log) (h : Flow out seen child w.2) :
      Flow out seen (child.tryWait host.logged w).2.1 (child.tryWait host.logged w).2.2.2 := by
    cases hstatus : child.status with
    | none => exact h.tryWait hout host hstatus
    | some status =>
      simp only [tryWait, hstatus]
      exact h
  cases operation with
  | write data close =>
    exact ⟨seen, h.tells (withoutInput_write ..) (tells_write ..), Or.inl rfl⟩
  | flush => exact ⟨seen, h.tells (withoutInput_flushStdin ..) (tells_flushStdin ..), Or.inl rfl⟩
  | closeStdin => exact ⟨seen, h.tells rfl (tells_closeStdin ..), Or.inl rfl⟩
  | read stream => exact ⟨_, h.readStream hout host stream, Or.inr (status_readStream ..)⟩
  | tryWait => exact ⟨seen, hlook child w h, Or.inl rfl⟩
  | wait =>
    refine ⟨seen, ?_, Or.inl rfl⟩
    cases hstatus : child.status with
    | none => exact h.wait hout host hstatus
    | some status =>
      simp only [perform, wait, hstatus]
      exact h
  | waitForIo milliseconds =>
    exact ⟨seen, h.quiet (waits_waitForIo ..) fun _ hcall => hcall.payload, Or.inl rfl⟩
  | terminate force => exact ⟨seen, h.tells rfl (tells_signal ..), Or.inl rfl⟩
  | terminateWithTimeout fuel grace =>
    refine ⟨seen, ?_, Or.inl rfl⟩
    refine terminateWithTimeout_rel host.logged
      (R := fun m m' => Flow out seen m.1 m.2.2 → Flow out seen m'.1 m'.2.2)
      (fun _ h => h) (fun h g hm => g (h hm)) ?_ hlook ?_ ?_ fuel grace child w h
    · intro child signal w h
      exact h.tells rfl (tells_signal ..)
    · intro child w h
      exact h.quiet (.one (.now _) trivial rfl) fun _ hcall => Call.Waits.payload hcall
    · intro child microseconds w h
      exact h.quiet (.one (.sleep _) trivial rfl) fun _ hcall => Call.Waits.payload hcall
  | elsewhere change => exact ⟨seen, h, Or.inl rfl⟩

theorem flow_deal {host : Host ω} {out : OutputStream → Option Descriptor}
    {seen : OutputStream → List UInt8} {child : Child} {w : ω × Log} (hout : Apart out)
    (h : Flow out seen child w.2) (operations : List (Operation ω)) :
    let done := child.deal host w operations
    ∃ seen', Flow out seen' done.child done.machine.2 := by
  induction operations generalizing seen child w with
  | nil => exact ⟨seen, h⟩
  | cons operation rest ih =>
    obtain ⟨seen', h', -⟩ := flow_perform hout h operation
    exact ih h'

/-- An operation that sees the exit keeps what it receives, for the next read. -/
theorem received_of_exit {host : Host ω} {out : OutputStream → Option Descriptor}
    {seen : OutputStream → List UInt8} {child : Child} {w : ω × Log} (hout : Apart out)
    (h : Flow out seen child w.2) (hsound : child.Sound) (operation : Operation ω)
    (hbefore : child.exited = false)
    (hafter : (child.perform host w operation).2.1.exited = true) (stream : OutputStream) :
    received (out stream) (child.perform host w operation).2.2.2 =
      received (out stream) w.2 ++ (child.perform host w operation).2.1.residue stream := by
  obtain ⟨seen', h', hseen | hstatus⟩ := flow_perform hout h operation
  · rw [h'.received, h.received, hseen, hsound.unread hbefore, List.append_nil]
  · rw [exited, hstatus] at hafter
    cases hbefore.symm.trans hafter

/-- A child that was just started has fields that fit. -/
theorem Sound.spawn {host : Host ω} {w w' : ω} {executable : String} {args : List String}
    {options : LaunchOptions} {child : Child}
    (h : Chaperone.spawn host executable args options w = (.ok child, w')) : child.Sound := by
  obtain ⟨_, launched, -, rfl⟩ := spawn_ok h
  refine ⟨?_, ?_, fun hne => absurd rfl hne, ?_⟩
  · intro hexited
    cases hexited
  · intro _ stream
    cases stream <;> rfl
  · intro hflag
    cases hflag

end Child

/-- **What holds of a child at any time**, whatever was done with it since it was started.

Its fields fit together, so a flush that finds no pipe finds no data either.  What it loses it does
not get back.  Once its exit has been seen the status stays and is what every later question gives,
nothing can be written, and what was received when the exit was seen is read once. -/
theorem Child.deal_sound {host : Host ω} {executable : String} {args : List String}
    {options : LaunchOptions} {w : ω} {w' : ω × Log} {child : Child}
    (hspawn : spawn host.logged executable args options (w, []) = (.ok child, w'))
    (operations : List (Operation ω)) :
    let done := child.deal host w' operations
    done.child.Sound ∧
      (∀ w, done.child.stdin = none →
        done.child.flushStdin host.logged w = (.ok (), done.child, w)) ∧
      (∀ w d, done.child.stdin = some d → ∃ calls result child' w'',
        done.child.flushStdin host.logged w = (result, child', w'', w.2 ++ calls) ∧
          Flushed done.child d calls result child') ∧
      (∀ operation, let after := done.child.perform host done.machine operation
        done.child.exited = false → after.2.1.exited = true → ∀ stream,
          received (child.pipe stream) after.2.2.2 =
            received (child.pipe stream) done.machine.2 ++ after.2.1.residue stream) ∧
      ∀ more, let later := done.child.deal host done.machine more
        Child.Later done.child later.child ∧
          ∀ status, done.child.status = some status →
            later.child.Settled host.logged status ∧
              ∀ stream, GivesOnce (done.child.residue stream) (later.reads stream) := by
  intro done
  obtain ⟨hsound, -⟩ := Child.Evolves.deal host child w' operations (.spawn hspawn)
  have hout := apart_of_spawn hspawn
  obtain ⟨seen, hflow⟩ := Child.flow_deal hout (Flow.spawn hspawn) operations
  refine ⟨hsound, ?_, ?_, ?_, ?_⟩
  · intro w hd
    obtain ⟨hpending, hflag⟩ := hsound.idle hd
    exact Child.flushStdin_of_idle host.logged hpending hflag w
  · intro w d hd
    obtain ⟨calls, hlog, hflushed⟩ := Child.flushStdin_spec host done.child w hd
    refine ⟨calls, _, _, (done.child.flushStdin host.logged w).2.2.1, ?_, hflushed⟩
    rw [← hlog]
  · intro operation after hbefore hafter stream
    exact Child.received_of_exit hout hflow hsound operation hbefore hafter stream
  · intro more later
    obtain ⟨hsound', hlater⟩ := Child.Evolves.deal host done.child done.machine more hsound
    refine ⟨hlater, ?_⟩
    intro status hstatus
    exact ⟨hsound'.settled (hlater.status status hstatus) host.logged,
      hsound.givesOnce hstatus host done.machine more⟩

/-! ### An example -/

structure Lone where
  /-- What the next writes to the program give. -/
  answers : List WriteResult
  /-- What waits in its standard output. -/
  output : List UInt8 := []
  running : Bool := true

def WriteResult.clip (room : Nat) : WriteResult → WriteResult
  | .wrote count => .wrote (min count room)
  | result => result

/-- The supervisor of one program. -/
def Host.lone : Host Lone where
  read d n w :=
    if d = 1 ∧ w.output ≠ [] then
      (.bytes (w.output.take n), { w with output := w.output.drop n })
    else (if w.running then .wouldBlock else .bytes [], w)
  write _ bytes w :=
    match w.answers with
    | [] => (.wouldBlock, w)
    | answer :: answers => (answer.clip bytes.length, { w with answers })
  close _ w := w
  reap _ w := (if w.running then .running else .ended 0, w)
  await _ w := (.ok 0, { w with running := false })
  kill _ _ w := (.ok (), { w with running := false })
  watch _ _ w := (.ok (), w)
  sleep _ w := w
  now w := (0, w)
  start _ w := (.ok ⟨1, some 0, some 1, some 2⟩, w)
  view _ := ⟨fun _ => .executable, fun _ => true, .ok "/", []⟩
  readFile _ w := (.error (.os Errno.noEntry), w)
  wallClock _ := 0
  patience w := w.answers.length
  patience_read h := by
    split at h
    · cases h
    · split at h <;> cases h
  patience_write {d bytes w w'} h := by
    split at h
    · cases h
    · next answer answers hanswers =>
      obtain rfl := (Prod.mk.inj h).2
      rw [hanswers]
      exact Nat.lt_succ_self _
  length_read {d n w chunk w'} h := by
    split at h
    · cases h
      exact List.length_take_le ..
    · split at h <;> cases h
      exact Nat.zero_le _
  count_write {d bytes w count w'} h := by
    split at h
    · cases h
    · next answer answers hanswers =>
      have hcount := (Prod.mk.inj h).1
      cases answer with
      | wrote n =>
        cases hcount
        exact Nat.min_le_right ..
      | _ => cases hcount
  nodup_start h := by
    cases h
    decide

/-- What is done with a program that wrote one byte: it is given one, killed and looked at. -/
def Child.dealKilled : Dealings Lone :=
  let (_, w) := spawn Host.lone.logged "/bin/cat" [] {} ({ answers := [], output := [97] }, [])
  { pid := 1, stdin := some 0, stdout := some 1, stderr := some 2, leadsGroup := true : Child }.deal
    Host.lone w [.write [98] true, .terminate true, .tryWait]

/-- The byte is read once. -/
theorem Child.deal_sound_killed :
    Child.dealKilled.child.status = some (.exited 0) ∧ Child.dealKilled.child.Sound ∧
      GivesOnce [97] ((Child.dealKilled.child.deal Host.lone Child.dealKilled.machine
        [.read .stdout, .read .stdout]).reads .stdout) := by
  have hspawn : (spawn Host.lone.logged "/bin/cat" [] {}
      ({ answers := [], output := [97] }, [])).1 = .ok
        { pid := 1, stdin := some 0, stdout := some 1, stderr := some 2, leadsGroup := true } := by
    cbv
  have hstatus : Child.dealKilled.child.status = some (.exited 0) := by cbv
  have hresidue : Child.dealKilled.child.residue .stdout = [97] := by cbv
  obtain ⟨hsound, -, -, -, hlater⟩ := Child.deal_sound (Prod.ext hspawn rfl)
    [.write [98] true, .terminate true, .tryWait]
  have hgives := ((hlater [.read .stdout, .read .stdout]).2 _ hstatus).2 .stdout
  rw [← hresidue]
  exact ⟨hstatus, hsound, hgives⟩

end Chaperone
