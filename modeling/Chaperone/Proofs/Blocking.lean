import Chaperone.Proofs.Child.Sound
import Chaperone.Proofs.Run

/-!
# When a run blocks

A run to the end makes two kinds of calls that may not return at once: it waits for the end of its
program, or it waits for the pipes.  While it waits for the end it neither reads nor writes, so the
program must not need it any more.

What makes this safe is an invariant of the input (`Child.Ending`): as long as the pipe of the input
is open, something waits for it and the end is due.  So when nothing waits, the pipe is closed.

* `Run.Turn`: what is done in a round before it may block: queued input is offered, and both output
  streams are read until nothing more comes for now.
* `Run.Foreseen`: what is known when a call may block.
* `runProgram_foresees`: it holds of every call of every run.
-/

namespace Chaperone

variable {ω : Type}

/-! ### Calls that may block -/

def Call.Awaits : Call → Prop
  | .await _ _ => True
  | _ => False

/-- A call that may not return at once. -/
def Call.Blocks (call : Call) : Prop := call.Awaits ∨ call.Waits

theorem Call.Tells.not_blocks {call : Call} (h : call.Tells) : ¬call.Blocks := by
  cases call with
  | write | close | kill => exact fun hblocks => hblocks.elim id id
  | _ => exact h.elim

theorem Call.Empties.not_blocks {call : Call} (h : call.Empties) : ¬call.Blocks := by
  cases call with
  | read | close => exact fun hblocks => hblocks.elim id id
  | _ => exact h.elim

/-- Of the calls between two logs, those that may block were made when `Good` said so. -/
def Guarded (Good : Log → Call → Prop) (log log' : Log) : Prop :=
  log <+: log' ∧
    ∀ before call, log <+: before → before ++ [call] <+: log' → call.Blocks → Good before call

namespace Guarded

variable {Good : Log → Call → Prop} {log log' log'' : Log}

theorem refl (log : Log) : Guarded Good log log := by
  refine ⟨List.prefix_refl log, ?_⟩
  intro before call hbefore hcall _
  have hlength := (hcall.trans hbefore).length_le
  rw [List.length_append, List.length_singleton] at hlength
  exact absurd hlength (Nat.not_succ_le_self _)

theorem trans (h : Guarded Good log log') (g : Guarded Good log' log'') :
    Guarded Good log log'' := by
  refine ⟨h.1.trans g.1, ?_⟩
  intro before call hbefore hcall hblocks
  rcases List.prefix_or_prefix_of_prefix g.1 hcall with hearly | hlate
  · rcases List.prefix_concat_iff.mp hearly with hlast | hearly
    · exact h.2 before call hbefore (hlast ▸ List.prefix_refl _) hblocks
    · exact g.2 before call hearly hcall hblocks
  · exact h.2 before call hbefore hlate hblocks

/-- Calls that cannot block. -/
theorem of_only {P : Call → Prop} {w w' : ω × Log} (hw : Only P w w')
    (hP : ∀ call, P call → ¬call.Blocks) : Guarded Good w.2 w'.2 := by
  obtain ⟨calls, hlog, hcalls⟩ := hw
  refine ⟨⟨calls, hlog.symm⟩, ?_⟩
  rintro before call ⟨more, rfl⟩ hcall hblocks
  rw [hlog, List.append_assoc] at hcall
  have hmem : call ∈ calls :=
    ((List.prefix_append_right_inj _).mp hcall).subset (List.mem_append_right _ List.mem_cons_self)
  exact absurd hblocks (hP call (hcalls call hmem))

/-- One call, which may block. -/
theorem one (call : Call) (hlog : log' = log ++ [call]) (h : call.Blocks → Good log call) :
    Guarded Good log log' := by
  subst hlog
  refine ⟨List.prefix_append _ _, ?_⟩
  intro before other hbefore hother
  have hlength := hother.length_le
  rw [List.length_append, List.length_append] at hlength
  have hsame : log = before := hbefore.eq_of_length_le (Nat.le_of_succ_le_succ hlength)
  subst hsame
  obtain rfl := List.singleton_inj.mp
    ((List.prefix_append_right_inj log).mp hother |>.eq_of_length rfl)
  exact h

end Guarded

/-! ### What a reading does -/

def ReadResult.Stops : ReadResult → Prop
  | .bytes [] | .wouldBlock | .failed _ => True
  | _ => False

/-- Reads from a pipe until it would block, ends or fails, or until `count` and what was read are
enough for one call. -/
structure Exhausts (d : Descriptor) (count : Nat) (reads : Log) : Prop where
  only : ∀ call ∈ reads, ∃ result, call = .read d readChunk result
  stops : (∃ result, reads.getLast? = some (.read d readChunk result) ∧ result.Stops) ∨
    maxPerCall ≤ count + (received (some d) reads).length

def Reads (pipe : Option Descriptor) (calls : Log) : Prop :=
  match pipe with
  | none => calls = []
  | some d => ∃ reads, Exhausts d 0 reads ∧ (calls = reads ∨ calls = reads ++ [.close d])

def Offers (child : Child) (calls : Log) : Prop :=
  child.pendingInput = [] ∧ calls = [] ∨
    ∃ d writes result child', child.pendingInput ≠ [] ∧ child.stdin = some d ∧
      Flushed child d writes result child' ∧
      (result = .ok () ∧ calls = writes ∨
        ∃ cause killed, result = .error cause ∧
          calls = writes ++ [.kill child.target .kill killed])

theorem Exhausts.one {d : Descriptor} {count : Nat} {result : ReadResult}
    (h : result.Stops ∨
      maxPerCall ≤ count + (Call.payload (some d) (.read d readChunk result)).length) :
    Exhausts d count [.read d readChunk result] where
  only call hcall := ⟨result, List.mem_singleton.mp hcall⟩
  stops := by
    refine h.imp (fun hstops => ⟨result, rfl, hstops⟩) ?_
    intro henough
    rw [received, List.flatMap_cons, List.flatMap_nil, List.append_nil]
    exact henough

theorem Exhausts.cons {d : Descriptor} {count more : Nat} {result : ReadResult} {reads : Log}
    (h : Exhausts d more reads)
    (hmore : more = count + (Call.payload (some d) (.read d readChunk result)).length) :
    Exhausts d count (.read d readChunk result :: reads) where
  only := List.forall_mem_cons.mpr ⟨⟨result, rfl⟩, h.only⟩
  stops := by
    rcases h.stops with ⟨last, hlast, hstops⟩ | henough
    · refine Or.inl ⟨last, ?_, hstops⟩
      rw [List.getLast?_cons, hlast, Option.getD_some]
    · refine Or.inr ?_
      rw [received, List.flatMap_cons, List.length_append]
      rw [received] at henough
      omega

theorem drain_exhausts (host : Host ω) (d : Descriptor) (taken : List UInt8) (count : Nat)
    (w : ω × Log) :
    ∃ reads, (drain host.logged d taken count w).2.2.2 = w.2 ++ reads ∧
      Exhausts d count reads := by
  have hpayload (chunk : List UInt8) (n : Nat) :
      Call.payload (some d) (.read d n (.bytes chunk)) = chunk := if_pos rfl
  fun_induction drain host.logged d taken count w with
  | case1 taken count w w' hr | case4 taken count w w' hr | case6 taken count w cause w' hr =>
    exact ⟨_, log_of_read hr, .one (Or.inl trivial)⟩
  | case2 taken count w b chunk w' hr count' hcap =>
    refine ⟨_, log_of_read hr, .one (Or.inr ?_)⟩
    rw [hpayload]
    exact hcap
  | case3 taken count w b chunk w' hr count' hcap ih =>
    obtain ⟨reads, hlog, hreads⟩ := ih
    refine ⟨.read d readChunk (.bytes (b :: chunk)) :: reads, ?_, hreads.cons ?_⟩
    · rw [hlog, log_of_read hr, List.append_assoc]
      rfl
    · rw [hpayload]
      rfl
  | case5 taken count w w' hr ih =>
    obtain ⟨reads, hlog, hreads⟩ := ih
    refine ⟨.read d readChunk .interrupted :: reads, ?_, hreads.cons rfl⟩
    rw [hlog, log_of_read hr, List.append_assoc]
    rfl

/-! ### Pipes that were closed -/

/-- A pipe that was there at first is still there, or it has been closed. -/
def Accounted (first now : Option Descriptor) (log : Log) : Prop :=
  now = first ∨ now = none ∧ ∀ d, first = some d → .close d ∈ log

theorem Accounted.later {first now : Option Descriptor} {log log' : Log}
    (h : Accounted first now log) (hlog : log <+: log') : Accounted first now log' := by
  refine h.imp_right ?_
  rintro ⟨hnone, hclosed⟩
  exact ⟨hnone, fun d hd => hlog.subset (hclosed d hd)⟩

/-- A pipe that is released is closed. -/
theorem Accounted.release {first now : Option Descriptor} {log log' : Log}
    (h : Accounted first now log) (hlog : log <+: log')
    (hclosed : ∀ d, now = some d → .close d ∈ log') : Accounted first none log' := by
  refine Or.inr ⟨rfl, ?_⟩
  intro d hd
  rcases h with rfl | ⟨-, hold⟩
  · exact hclosed d hd
  · exact hlog.subset (hold d hd)

namespace Child

/-- What a read does with its pipe. -/
theorem reads_readStream (host : Host ω) (child : Child) (stream : OutputStream) (w : ω × Log) :
    ∃ calls, (child.readStream host.logged stream w).2.2.2.2 = w.2 ++ calls ∧
      Reads (child.pipe stream) calls ∧
      ((child.readStream host.logged stream w).2.2.1.pipe stream = child.pipe stream ∨
        (child.readStream host.logged stream w).2.2.1.pipe stream = none ∧
          ∀ d, child.pipe stream = some d → .close d ∈ calls) := by
  simp only [readStream, pipe_withResidue]
  cases hd : child.pipe stream with
  | none => exact ⟨[], (List.append_nil _).symm, rfl, Or.inl (by rw [pipe_withResidue, hd])⟩
  | some d =>
    obtain ⟨reads, hlog, hreads⟩ := drain_exhausts host d (child.residue stream) 0 w
    dsimp only
    generalize drain host.logged d (child.residue stream) 0 w = r at hlog ⊢
    obtain ⟨pause, bytes, w'⟩ := r
    cases pause with
    | later => exact ⟨reads, hlog, ⟨reads, hreads, Or.inl rfl⟩, Or.inl (by simp [hd])⟩
    | ended | failed cause =>
      have hclose : (host.logged.close d w').2 = w.2 ++ (reads ++ [.close d]) := by
        rw [← List.append_assoc, ← hlog]
        rfl
      refine ⟨reads ++ [.close d], hclose, ⟨reads, hreads, Or.inr rfl⟩,
        Or.inr ⟨pipe_withoutPipe .., ?_⟩⟩
      rintro _ ⟨⟩
      exact List.mem_append_right _ List.mem_cons_self

/-- A read of one stream leaves the pipe of the other. -/
theorem pipe_readStream_of_ne (host : Host ω) (child : Child) {stream other : OutputStream}
    (hne : other ≠ stream) (w : ω) :
    (child.readStream host stream w).2.2.1.pipe other = child.pipe other := by
  rcases child.readStream_child stream host w with h | h <;>
    simp [h, pipe_withoutPipe_of_ne _ _ hne]

/-- Waiting for the pipes is one call. -/
theorem log_of_waitForIo (host : Host ω) (milliseconds : Nat) (child : Child) (w : ω × Log) :
    ∃ call, call.Waits ∧ (child.waitForIo host.logged milliseconds w).2.2 = w.2 ++ [call] := by
  have hwatch (pipes : List (Descriptor × Interest)) (milliseconds : Nat) :
      ∃ call, call.Waits ∧ (host.logged.watch pipes milliseconds w).2.2 = w.2 ++ [call] :=
    ⟨.watch pipes milliseconds _, trivial, rfl⟩
  simp only [waitForIo]
  split
  · exact ⟨.sleep _, trivial, rfl⟩
  · split
    · next h =>
      obtain ⟨call, hwaits, hlog⟩ := hwatch child.watched (min milliseconds 0x7FFFFFFF)
      exact ⟨call, hwaits, by rw [← hlog, h]⟩
    · next h =>
      obtain ⟨call, hwaits, hlog⟩ := hwatch child.watched (min milliseconds 0x7FFFFFFF)
      exact ⟨call, hwaits, by rw [apply_ite Prod.snd, ite_self, ← hlog, h]⟩

/-! ### Input whose end is due -/

/-- The input of a child ends as soon as all of it is written: while its pipe is open something
waits for it. -/
structure Ending (child : Child) : Prop where
  closed : child.stdin = none → child.pendingInput = []
  opened : child.stdin ≠ none → child.pendingInput ≠ [] ∧ child.closeWhenFlushed = true

variable {child child' : Child} {d : Descriptor} {calls : Log} {result : Except WriteError Unit}

theorem Ending.withoutInput (child : Child) : child.withoutInput.Ending :=
  ⟨fun _ => rfl, fun h => absurd rfl h⟩

/-- Without anything that waits the input is closed. -/
theorem Ending.stdin_eq_none (h : child.Ending) (hpending : child.pendingInput = []) :
    child.stdin = none := by
  by_contra hopen
  exact (h.opened hopen).1 hpending

/-- A flush that ends the input leaves something to write, or closes the input. -/
theorem Ending.of_flushed (h : Flushed child d calls result child') (hd : child.stdin = some d)
    (hflag : child.closeWhenFlushed = true) : child'.Ending := by
  cases h with
  | waits _ hne =>
    refine ⟨?_, fun _ => ⟨hne, hflag⟩⟩
    intro hnone
    cases hd.symm.trans hnone
  | empties _ hopen => cases hopen.symm.trans hflag
  | ends | fails => exact .withoutInput child

theorem Ending.congr (h : child.Ending) (hstdin : child'.stdin = child.stdin)
    (hpending : child'.pendingInput = child.pendingInput)
    (hflag : child'.closeWhenFlushed = child.closeWhenFlushed) : child'.Ending := by
  refine ⟨?_, ?_⟩
  · rw [hstdin, hpending]
    exact h.closed
  · rw [hstdin, hpending, hflag]
    exact h.opened

/-- A flush that releases the pipe closes it. -/
theorem accounted_flushed (h : Flushed child d calls result child') (hd : child.stdin = some d)
    {first : Option Descriptor} {log : Log} (hfirst : Accounted first child.stdin log) :
    Accounted first child'.stdin (log ++ calls) := by
  cases h with
  | waits | empties => exact hfirst.later (List.prefix_append _ _)
  | ends | fails =>
    refine hfirst.release (List.prefix_append _ _) ?_
    intro other hother
    obtain rfl := Option.some.inj (hd.symm.trans hother)
    exact List.mem_append_right _ (List.mem_append_right _ List.mem_cons_self)

end Child

/-! ### The parts of a round -/

namespace Run

structure Held (first child : Child) (log : Log) : Prop where
  running : child.status = none
  ending : child.Ending
  stdin : Accounted first.stdin child.stdin log
  pipe : ∀ stream, Accounted (first.pipe stream) (child.pipe stream) log

def exchange (host : Host ω) (run : Run) (w : ω) : Run × ω :=
  let (child, w) := flush host run.child w
  { run with child }.collect host w

/-- From the beginning of a round to the moment at which it may block. -/
structure Turn (host : Host ω) (beginning moment : Run × ω × Log) : Prop where
  exchange : beginning.1.exchange host.logged beginning.2 = moment
  calls : ∃ input out err, moment.2.2 = beginning.2.2 ++ input ++ out ++ err ∧
    Offers beginning.1.child input ∧ Reads (beginning.1.child.pipe .stdout) out ∧
    Reads (beginning.1.child.pipe .stderr) err

variable {first child child' : Child} {run : Run} {w w' : ω × Log}

theorem Held.later {log log' : Log} (h : Held first child log) (hlog : log <+: log') :
    Held first child log' :=
  ⟨h.running, h.ending, h.stdin.later hlog, fun stream => (h.pipe stream).later hlog⟩

/-- What is done with the input leaves the rest alone. -/
theorem Held.of_input {log log' : Log} (hstatus : child.status = none)
    (hchild : child'.withoutInput = child.withoutInput) (hending : child'.Ending)
    (hlog : log <+: log') (hstdin : Accounted first.stdin child'.stdin log')
    (hpipe : ∀ stream, Accounted (first.pipe stream) (child.pipe stream) log) :
    Held first child' log' where
  running := (Child.status_of_withoutInput hchild).trans hstatus
  ending := hending
  stdin := hstdin
  pipe stream := by
    rw [Child.pipe_of_withoutInput hchild]
    exact (hpipe stream).later hlog

/-- A child whose input cannot be delivered is killed. -/
theorem log_of_abandonInput (host : Host ω) (hstatus : child.status = none) (w : ω × Log) :
    ∃ result, (abandonInput host.logged child w).2 = w.2 ++ [.kill child.target .kill result] := by
  rcases Child.signal_cases host child w .kill with ⟨hexited, -⟩ | ⟨-, hkilled⟩
  · rw [Child.exited, hstatus] at hexited
    cases hexited
  · exact hkilled

/-- The first write asks for the end of the input. -/
theorem held_feed {executable : String} {args : List String} {options : LaunchOptions}
    (host : Host ω) (hspawn : spawn host.logged executable args options w = (.ok child, w'))
    (input : String) :
    Held child (feed host.logged input child w').1 (feed host.logged input child w').2.2 := by
  have hstatus := status_of_spawn hspawn
  have hpending : child.pendingInput = [] := by
    obtain ⟨_, _, -, rfl⟩ := spawn_ok hspawn
    rfl
  have hpipe (stream : OutputStream) :
      Accounted (child.pipe stream) (child.pipe stream) w'.2 := Or.inl rfl
  simp only [feed]
  split
  · obtain ⟨calls, hlog, -⟩ := Child.tells_closeStdin host child w'
    refine .of_input hstatus rfl (.withoutInput child) ⟨calls, hlog.symm⟩ ?_ hpipe
    refine Accounted.release (Or.inl rfl) ⟨calls, hlog.symm⟩ ?_
    intro d hd
    rw [Child.log_of_closeStdin host hd]
    exact List.mem_append_right _ List.mem_cons_self
  · have hkeep : child.stdin = none → Held child child w'.2 := fun hnone =>
      ⟨hstatus, ⟨fun _ => hpending, fun h => absurd hnone h⟩, Or.inl rfl, hpipe⟩
    have hwrite : Held child (child.write host.logged (Text.Utf8.encode input) true w').2.1
        (child.write host.logged (Text.Utf8.encode input) true w').2.2.2 := by
      simp only [Child.write]
      split
      · next hrefused =>
        refine hkeep ?_
        simpa [Child.exited, hstatus, Child.stdinOpen] using hrefused
      · next hopen =>
        have hsome : child.stdin ≠ none := by
          simpa [Child.exited, hstatus, Child.stdinOpen] using hopen
        obtain ⟨d, hd⟩ := Option.ne_none_iff_exists'.mp hsome
        obtain ⟨calls, hlog, hflushed⟩ := Child.flushStdin_spec host
          { child with
            pendingInput := child.pendingInput ++ Text.Utf8.encode input
            closeWhenFlushed := child.closeWhenFlushed || true } w' hd
        rw [hlog]
        exact .of_input hstatus hflushed.withoutInput (.of_flushed hflushed hd (Bool.or_true _))
          (List.prefix_append _ _) (Child.accounted_flushed hflushed hd (Or.inl rfl)) hpipe
    generalize child.write host.logged (Text.Utf8.encode input) true w' = r at hwrite ⊢
    obtain ⟨result, child', w''⟩ := r
    cases result with
    | ok => exact hwrite
    | error cause =>
      obtain ⟨killed, hkilled⟩ := log_of_abandonInput host hwrite.running w''
      exact hwrite.later ⟨_, hkilled.symm⟩

theorem held_flush (h : Held first child w.2) (host : Host ω) :
    Held first (flush host.logged child w).1 (flush host.logged child w).2.2 ∧
      ∃ calls, (flush host.logged child w).2.2 = w.2 ++ calls ∧ Offers child calls := by
  simp only [flush]
  split
  · next hpending =>
    have hne : child.pendingInput ≠ [] := by simpa [Child.hasPendingInput] using hpending
    have hopen : child.stdin ≠ none := fun hnone => hne (h.ending.closed hnone)
    obtain ⟨d, hd⟩ := Option.ne_none_iff_exists'.mp hopen
    obtain ⟨calls, hlog, hflushed⟩ := Child.flushStdin_spec host child w hd
    have hsame := hflushed.withoutInput
    have hheld := Held.of_input h.running hsame (.of_flushed hflushed hd (h.ending.opened hopen).2)
      (List.prefix_append _ _) (Child.accounted_flushed hflushed hd h.stdin) h.pipe
    generalize child.flushStdin host.logged w = r at hlog hflushed hheld hsame ⊢
    obtain ⟨result, child', w'⟩ := r
    rw [← hlog] at hheld
    cases result with
    | ok =>
      exact ⟨hheld, calls, hlog,
        Or.inr ⟨d, calls, _, _, hne, hd, hflushed, Or.inl ⟨rfl, rfl⟩⟩⟩
    | error cause =>
      obtain ⟨killed, hkilled⟩ := log_of_abandonInput host hheld.running w'
      refine ⟨hheld.later ⟨_, hkilled.symm⟩, calls ++ [.kill child.target .kill killed], ?_,
        Or.inr ⟨d, calls, _, _, hne, hd, hflushed, Or.inr ⟨cause, killed, rfl, rfl⟩⟩⟩
      rw [hkilled, Child.target_of_withoutInput hsame, ← List.append_assoc]
      exact congrArg (· ++ _) hlog
  · next hpending =>
    have hnil : child.pendingInput = [] := by simpa [Child.hasPendingInput] using hpending
    exact ⟨h, [], (List.append_nil _).symm, Or.inl ⟨hnil, rfl⟩⟩

theorem held_readStream (h : Held first child w.2) (host : Host ω) (stream : OutputStream) :
    Held first (child.readStream host.logged stream w).2.2.1
        (child.readStream host.logged stream w).2.2.2.2 ∧
      ∃ calls, (child.readStream host.logged stream w).2.2.2.2 = w.2 ++ calls ∧
        Reads (child.pipe stream) calls := by
  obtain ⟨calls, hlog, hreads, hpipe⟩ := Child.reads_readStream host child stream w
  obtain ⟨hstdin, hpending, hflag⟩ := Child.input_readStream host.logged child stream w
  have hstatus := child.status_readStream stream host.logged w
  refine ⟨⟨hstatus.trans h.running, h.ending.congr hstdin hpending hflag, ?_, ?_⟩, calls, hlog,
    hreads⟩
  · rw [hstdin, hlog]
    exact h.stdin.later (List.prefix_append _ _)
  · intro other
    rw [hlog]
    by_cases hne : other = stream
    · subst hne
      rcases hpipe with hsame | ⟨hnone, hclosed⟩
      · rw [hsame]
        exact (h.pipe other).later (List.prefix_append _ _)
      · rw [hnone]
        exact (h.pipe other).release (List.prefix_append _ _) fun d hd =>
          List.mem_append_right _ (hclosed d hd)
    · rw [Child.pipe_readStream_of_ne _ _ hne]
      exact (h.pipe other).later (List.prefix_append _ _)

theorem turn_exchange (h : Held first run.child w.2) (host : Host ω) :
    Held first (run.exchange host.logged w).1.child (run.exchange host.logged w).2.2 ∧
      Turn host (run, w) (run.exchange host.logged w) := by
  obtain ⟨hflushed, input, hinput, hoffers⟩ := held_flush h host
  have hsame := withoutInput_flush host.logged run.child w
  obtain ⟨hout, out, hlogOut, hreadsOut⟩ := held_readStream hflushed host .stdout
  obtain ⟨herr, err, hlogErr, hreadsErr⟩ := held_readStream hout host .stderr
  rw [Child.pipe_of_withoutInput hsame] at hreadsOut
  rw [Child.pipe_readStream_of_ne _ _ (by decide), Child.pipe_of_withoutInput hsame] at hreadsErr
  refine ⟨herr, rfl, input, out, err, ?_, hoffers, hreadsOut, hreadsErr⟩
  rw [hlogOut, hinput] at hlogErr
  exact hlogErr

/-! ### Rounds -/

def fed (host : Host ω) (input : String) (child : Child) (w : ω) : Run × ω :=
  let (child, w) := feed host input child w
  ({ child }, w)

inductive Begins (host : Host ω) (first : Run × ω × Log) : Run × ω × Log → Prop where
  | first : Begins host first first
  | next {m m' : Run × ω × Log} (h : Begins host first m)
      (hround : round host.logged m = .inl m') : Begins host first m'

/-- Nothing is left that a child could wait for: all pipes it was started with are closed, nothing
waits to be written and nothing that was read waits to be collected. -/
structure Released (first child : Child) (log : Log) : Prop where
  stdin : child.stdin = none
  pipe : ∀ stream, child.pipe stream = none
  pendingInput : child.pendingInput = []
  residue : ∀ stream, child.residue stream = []
  closed : ∀ d, first.stdin = some d ∨ (∃ stream, first.pipe stream = some d) → .close d ∈ log

/-- What is known when a run makes a call that may block.  It waits for the end of its program only
when that cannot wait for the run any more.  It waits for the pipes only in a round in which it has
written and read what it could, and right after an answer that its program is running. -/
structure Foreseen (host : Host ω) (child : Child) (start : Run × ω × Log) (before : Log)
    (call : Call) : Prop where
  awaits : call.Awaits → ∃ beginning moment, Begins host start beginning ∧
    Turn host beginning moment ∧ moment.2.2 = before ∧ Released child moment.1.child before
  waits : call.Waits → ∃ beginning moment, Begins host start beginning ∧
    Turn host beginning moment ∧ before = moment.2.2 ++ [.reap moment.1.child.pid .running]

theorem Held.released (h : Held first child w.2)
    (hdone : (!child.hasOpenOutput && !child.hasPendingInput) = true) :
    Released first child w.2 := by
  simp only [Bool.and_eq_true, Bool.not_eq_true', Child.hasPendingInput, Bool.not_eq_false',
    List.isEmpty_iff] at hdone
  obtain ⟨hopen, hpending⟩ := hdone
  have hpipe := pipe_of_closed hopen
  have hstdin := h.ending.stdin_eq_none hpending
  have hclosed {pipe now : Option Descriptor} {d : Descriptor} (hpipe : Accounted pipe now w.2)
      (hnow : now = none) (hd : pipe = some d) : .close d ∈ w.2 := by
    rcases hpipe with rfl | ⟨-, hclosed⟩
    · cases hnow.symm.trans hd
    · exact hclosed d hd
  refine ⟨hstdin, hpipe, hpending, ?_, ?_⟩
  · intro stream
    simp only [Child.hasOpenOutput, Bool.or_eq_false_iff, Bool.not_eq_false',
      List.isEmpty_iff] at hopen
    cases stream
    · exact hopen.1.2
    · exact hopen.2
  · rintro d (hd | ⟨stream, hd⟩)
    · exact hclosed h.stdin hstdin hd
    · exact hclosed (h.pipe stream) (hpipe stream) hd

section
variable {start beginning : Run × ω × Log}

theorem guarded_collect {Good : Log → Call → Prop} (host : Host ω) (run : Run) (w : ω × Log) :
    Guarded Good w.2 (run.collect host.logged w).2.2 := by
  have hread (child : Child) (stream : OutputStream) (w : ω × Log) :
      Guarded Good w.2 (child.readStream host.logged stream w).2.2.2.2 :=
    .of_only (child.readStream_spec stream host w).1 fun _ h => h.empties.not_blocks
  exact (hread run.child .stdout w).trans (hread _ .stderr _)

/-- What is done before a round may block cannot block itself. -/
theorem guarded_exchange {Good : Log → Call → Prop} (host : Host ω) (run : Run) (w : ω × Log) :
    Guarded Good w.2 (run.exchange host.logged w).2.2 := by
  have hflush : Guarded Good w.2 (flush host.logged run.child w).2.2 :=
    .of_only (tells_flush host run.child w) fun _ h => h.not_blocks
  exact hflush.trans (guarded_collect host _ _)

theorem guarded_recordExit {Good : Log → Call → Prop} (host : Host ω) (status : ExitStatus)
    (child : Child) (w : ω × Log) :
    Guarded Good w.2 (child.recordExit host.logged status w).2.2 :=
  .of_only (child.empties_recordExit host status w) fun _ h => h.not_blocks

/-- The wait for the end is the only call that may block when nothing is left to read or write. -/
theorem guarded_awaitEnd (hbegins : Begins host start beginning)
    (hturn : Turn host beginning (run, w)) (hstatus : run.child.status = none)
    (hreleased : Released first run.child w.2) :
    Guarded (Foreseen host first start) w.2
      (Sum.elim (·.2.2) (·.2.2) (run.awaitEnd host.logged w)) := by
  have hawait : Guarded (Foreseen host first start) w.2 (host.logged.await run.child.pid w).2.2 :=
    .one (.await run.child.pid _) rfl fun _ =>
      ⟨fun _ => ⟨beginning, (run, w), hbegins, hturn, rfl, hreleased⟩, fun hwaits => hwaits.elim⟩
  simp only [awaitEnd]
  cases hr : (ReapResult.ofAwait (host.logged.await run.child.pid w).1).status? with
  | some status =>
    rw [run.child.wait_of_report host.logged w hstatus hr]
    exact hawait.trans (guarded_recordExit host status run.child _)
  | none =>
    obtain ⟨cause, hwait⟩ := run.child.wait_of_failure host.logged w hstatus hr
    rw [hwait]
    exact hawait

/-- The wait for the pipes is the only call that may block while something is left, and it follows
an answer that the program is running. -/
theorem guarded_lookForEnd (hbegins : Begins host start beginning)
    (hturn : Turn host beginning (run, w)) (hheld : Held first run.child w.2) :
    Guarded (Foreseen host first start) w.2
        (Sum.elim (·.2.2) (·.2.2) (run.lookForEnd host.logged w)) ∧
      ∀ m, run.lookForEnd host.logged w = .inl m → Held first m.1.child m.2.2 := by
  have hreap : Guarded (Foreseen host first start) w.2 (host.logged.reap run.child.pid w).2.2 :=
    .one (.reap run.child.pid _) rfl fun hblocks => absurd hblocks fun h => h.elim id id
  have hlog : (host.logged.reap run.child.pid w).2.2 =
      w.2 ++ [.reap run.child.pid (host.logged.reap run.child.pid w).1] := rfl
  simp only [lookForEnd]
  cases hr : (host.logged.reap run.child.pid w).1.status? with
  | some status =>
    rw [run.child.tryWait_of_report host.logged w hheld.running hr]
    refine ⟨?_, fun m hm => by cases hm⟩
    exact (hreap.trans (guarded_recordExit host status run.child _)).trans
      (guarded_collect host _ _)
  | none =>
    rw [run.child.tryWait_of_silence host.logged w hheld.running hr]
    generalize host.logged.reap run.child.pid w = reaped at hreap hlog hr ⊢
    obtain ⟨answer, w'⟩ := reaped
    cases answer with
    | ended word => cases hr
    | failed errno => exact ⟨hreap, fun m hm => by cases hm⟩
    | running =>
      obtain ⟨call, hwaits, hcall⟩ := Child.log_of_waitForIo host ioWait run.child w'
      have hwait : Guarded (Foreseen host first start) w.2
          (run.child.waitForIo host.logged ioWait w').2.2 :=
        hreap.trans <| .one call hcall fun _ => by
          refine ⟨fun hawaits => ?_, fun _ => ⟨beginning, (run, w), hbegins, hturn, hlog⟩⟩
          cases call with
          | await => exact hwaits.elim
          | _ => exact hawaits.elim
      have hlater : Held first run.child (run.child.waitForIo host.logged ioWait w').2.2 :=
        hheld.later (hreap.1.trans ⟨_, hcall.symm⟩)
      dsimp only [ReapResult.silence]
      generalize run.child.waitForIo host.logged ioWait w' = waited at hwait hlater ⊢
      obtain ⟨result, w''⟩ := waited
      cases result with
      | error cause => exact ⟨hwait, fun m hm => by cases hm⟩
      | ok =>
        refine ⟨hwait, ?_⟩
        rintro m ⟨⟩
        exact hlater

/-- **What may block in a round is foreseen.** -/
theorem guarded_round (hbegins : Begins host start beginning)
    (hheld : Held first beginning.1.child beginning.2.2) :
    Guarded (Foreseen host first start) beginning.2.2
        (Sum.elim (·.2.2) (·.2.2) (round host.logged beginning)) ∧
      ∀ m, round host.logged beginning = .inl m → Held first m.1.child m.2.2 := by
  obtain ⟨run, w⟩ := beginning
  have hexchange : Guarded (Foreseen host first start) w.2 (run.exchange host.logged w).2.2 :=
    guarded_exchange host run w
  obtain ⟨hmoment, hturn⟩ := turn_exchange hheld host
  have hround : round host.logged (run, w) =
      let (run, w) := run.exchange host.logged w
      if !run.child.hasOpenOutput && !run.child.hasPendingInput then run.awaitEnd host.logged w
      else run.lookForEnd host.logged w := rfl
  rw [hround]
  generalize run.exchange host.logged w = moment at hexchange hmoment hturn ⊢
  obtain ⟨run', w'⟩ := moment
  dsimp only
  split
  · next hdone =>
    refine ⟨hexchange.trans ?_, ?_⟩
    · exact guarded_awaitEnd hbegins hturn hmoment.running (hmoment.released hdone)
    · intro m hm
      rw [awaitEnd] at hm
      split at hm <;> cases hm
  · obtain ⟨hguarded, hlater⟩ := guarded_lookForEnd hbegins hturn hmoment
    exact ⟨hexchange.trans hguarded, hlater⟩

theorem guarded_rounds (hbegins : Begins host start beginning)
    (hheld : Held first beginning.1.child beginning.2.2) (fuel : Nat) :
    Guarded (Foreseen host first start) beginning.2.2
      (Sum.elim (·.2.2) (·.2.2) (iterate (round host.logged) fuel beginning)) := by
  induction fuel generalizing beginning with
  | zero => exact .refl _
  | succ fuel ih =>
    obtain ⟨hguarded, hlater⟩ := guarded_round hbegins hheld
    rw [iterate]
    cases hround : round host.logged beginning with
    | inl m =>
      rw [hround] at hguarded
      exact hguarded.trans (ih (hbegins.next hround) (hlater m hround))
    | inr result =>
      rw [hround] at hguarded
      exact hguarded

end

end Run

/-- **A run blocks only when that is safe.**  Before it waits for the end of its program, all pipes
of the program are closed and nothing waits to be written or collected.  Before it waits for the
pipes, it has in that round written the input that waits and read both output streams until nothing
more came.  The log in which this is seen makes no difference to the run. -/
theorem runProgram_foresees (host : Host ω) (fuel : Nat) (executable : String) (args : List String)
    (input : String) (options : LaunchOptions) (w : ω) (before : Log) (call : Call)
    (hcall : before ++ [call] <+:
      (runProgram host.logged fuel executable args input options (w, [])).2.2)
    (hblocks : call.Blocks) :
    runProgram host fuel executable args input options w =
      (runProgram host.logged fuel executable args input options (w, [])).map id Prod.fst ∧
    ∃ child w', spawn host.logged executable args options (w, []) = (.ok child, w') ∧
      Run.Foreseen host child (Run.fed host.logged input child w') before call := by
  refine ⟨runProgram_logged host fuel executable args input options (w, []), ?_⟩
  simp only [runProgram] at hcall
  generalize hspawn : spawn host.logged executable args options (w, []) = spawned at hcall
  have hstart {Good : Log → Call → Prop} : Guarded Good [] spawned.2.2 := by
    rcases log_of_spawn hspawn with hlog | ⟨request, answer, hlog⟩
    · rw [hlog]
      exact .refl _
    · exact .one (.start request answer) hlog fun hblocks => absurd hblocks fun h => h.elim id id
  obtain ⟨result, w'⟩ := spawned
  cases result with
  | error cause =>
    have hnone : Guarded (fun _ _ => False) [] w'.2 := hstart
    exact (hnone.2 before call List.nil_prefix hcall hblocks).elim
  | ok child =>
    refine ⟨child, w', rfl, ?_⟩
    have hheld := Run.held_feed host hspawn input
    have hfeed {Good : Log → Call → Prop} :
        Guarded Good w'.2 (Run.feed host.logged input child w').2.2 :=
      .of_only (Run.tells_feed host input child w') fun _ h => h.not_blocks
    have hfirst : Run.Begins host (Run.fed host.logged input child w')
        (Run.fed host.logged input child w') := .first
    have hrounds := Run.guarded_rounds hfirst hheld fuel
    refine ((hstart.trans hfeed).trans hrounds).2 before call List.nil_prefix ?_ hblocks
    rw [Run.fed]
    dsimp only at hcall
    generalize iterate _ fuel _ = rounds at hcall ⊢
    obtain ⟨run, w''⟩ | ⟨result, w''⟩ := rounds <;> exact hcall

def Run.brief : Log :=
  (runProgram Host.lone.logged 1 "/bin/cat" [] "a" {}
    ({ answers := [.wrote 1], output := [97], running := false }, [])).2.2

/-- Its end is waited for when its three pipes are closed. -/
theorem runProgram_foresees_brief :
    Run.brief = Run.brief.take 8 ++ [.await 1 (.ok 0)] ∧
      ∀ d < 3, .close d ∈ Run.brief.take 8 := by
  have hlog : Run.brief = Run.brief.take 8 ++ [.await 1 (.ok 0)] := by cbv
  refine ⟨hlog, ?_⟩
  obtain ⟨-, child, w', hspawn, hforeseen⟩ := runProgram_foresees Host.lone 1 "/bin/cat" [] "a" {}
    { answers := [.wrote 1], output := [97], running := false } (Run.brief.take 8)
    (.await 1 (.ok 0)) (hlog ▸ List.prefix_refl _) (Or.inl trivial)
  obtain ⟨beginning, moment, -, -, -, hreleased⟩ := hforeseen.awaits trivial
  have hspawned : (spawn Host.lone.logged "/bin/cat" [] {}
      ({ answers := [.wrote 1], output := [97], running := false }, [])).1 = .ok
        { pid := 1, stdin := some 0, stdout := some 1, stderr := some 2, leadsGroup := true } := by
    cbv
  obtain rfl := Except.ok.inj (hspawned.symm.trans (congrArg Prod.fst hspawn))
  intro d hd
  refine hreleased.closed d ?_
  interval_cases d
  · exact Or.inl rfl
  · exact Or.inr ⟨.stdout, rfl⟩
  · exact Or.inr ⟨.stderr, rfl⟩

end Chaperone
