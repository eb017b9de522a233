import Chaperone.Proofs.Run
import Chaperone.Proofs.Supervise.Rejection

/-!
# Input that a child does not take

A child that has no pipe for its input, or whose pipe refuses it, is killed.  Its pipe may refuse
the first write or the last one, many rounds later.  `Run.feed` gives a child its input and
`Run.flush` writes what is left of it; a supervisor does the same with a child that it is to kill
(`Run.run_feed`, `Entry.flush_eq`).

* `Condemns`: of all calls that are made for a child, that it was killed if and only if its input
  is `undelivered`, and then once.
* `Fares`: what holds of a child from one step to the next until its end is reported.  When its
  pipe has refused a write nothing waits any more that could be refused again.
* `Rests`: what holds of it afterwards.
-/

namespace Chaperone

variable {σ ω : Type}

/-! ### What a log says -/

/-- Whether a call is a write that says that the pipe cannot be written to any more. -/
def Call.refuses : Call → Bool
  | .write _ _ (.wrote 0) | .write _ _ .brokenPipe | .write _ _ (.failed _) => true
  | _ => false

def Call.signal? : Call → Option (Target × Signal)
  | .kill target signal _ => some (target, signal)
  | _ => none

def sent (log : Log) : List (Target × Signal) := log.filterMap Call.signal?

/-- Whether input could not be delivered to a child, as it was when it started: there is some, and
there is no pipe for it or the pipe has refused it. -/
def undelivered (start : Child) (input : String) (log : Log) : Bool :=
  !input.isEmpty && (!start.stdinOpen || log.any Call.refuses)

def Call.Silent : Call → Prop
  | .write _ _ _ | .kill _ _ _ => False
  | _ => True

/-- A child is killed if and only if its input could not be delivered, and then once.  When its end
has been reported its pipes are only emptied and released. -/
structure Condemns (start : Child) (input : String) (log : Log) : Prop where
  signals : sent log = if undelivered start input log then [(start.target, .kill)] else []
  ceases : ∀ before after, log = before ++ after → reported before ≠ [] →
    ∀ call ∈ after, call.Empties

theorem Call.Empties.silent {call : Call} (h : call.Empties) : call.Silent := by
  cases call with
  | write | kill => exact h.elim
  | _ => trivial

theorem Call.Waits.silent {call : Call} (h : call.Waits) : call.Silent := by
  cases call with
  | write | kill => exact h.elim
  | _ => trivial

theorem Call.Silent.refuses {call : Call} (h : call.Silent) : call.refuses = false := by
  cases call with
  | write => exact h.elim
  | _ => rfl

theorem Call.Silent.signal? {call : Call} (h : call.Silent) : call.signal? = none := by
  cases call with
  | kill => exact h.elim
  | _ => rfl

theorem Call.Gentle.signal? {call : Call} (h : call.Gentle) : call.signal? = none := by
  cases call with
  | kill => exact h.elim
  | _ => rfl

namespace Only

variable {w w' : ω × Log}

theorem sent_eq {P : Call → Prop} (h : Only P w w') (hP : ∀ call, P call → call.signal? = none) :
    sent w'.2 = sent w.2 := by
  obtain ⟨calls, hlog, hcalls⟩ := h
  have hnil : sent calls = [] :=
    List.filterMap_eq_nil_iff.mpr fun call hcall => hP call (hcalls call hcall)
  rw [hlog, sent, List.filterMap_append]
  change sent w.2 ++ sent calls = _
  rw [hnil, List.append_nil]

theorem refuses_eq (h : Only Call.Silent w w') :
    w'.2.any Call.refuses = w.2.any Call.refuses := by
  obtain ⟨calls, hlog, hcalls⟩ := h
  have hnone : calls.any Call.refuses = false :=
    List.any_eq_false.mpr fun call hcall => by simp [(hcalls call hcall).refuses]
  rw [hlog, List.any_append, hnone, Bool.or_false]

theorem undelivered_eq (h : Only Call.Silent w w') (start : Child) (input : String) :
    undelivered start input w'.2 = undelivered start input w.2 := by
  rw [undelivered, h.refuses_eq, undelivered]

end Only

/-- No end was reported, so nothing can have come after it. -/
theorem Condemns.of_unreported {start : Child} {input : String} {log : Log}
    (hsignals : sent log = if undelivered start input log then [(start.target, .kill)] else [])
    (hreported : reported log = []) : Condemns start input log := by
  refine ⟨hsignals, ?_⟩
  rintro before after rfl hbefore
  have hprefix : reported before <+: reported (before ++ after) := by
    rw [reported, reported, asked_append, List.filterMap_append]
    exact List.prefix_append _ _
  rw [hreported] at hprefix
  exact absurd (List.prefix_nil.mp hprefix) hbefore

/-! ### Until the end is reported -/

/-- How a child fares, of which `start` is what it was when it started, until its end is
reported. -/
structure Fares (start : Child) (input : String) (child : Child) (log : Log) : Prop where
  running : child.status = none
  target : child.target = start.target
  unreported : reported log = []
  /-- Only input that can be written waits. -/
  queue : child.pendingInput ≠ [] → input ≠ "" ∧ child.stdinOpen = true
  /-- When the pipe is given up it is given up for good. -/
  closed : undelivered start input log = true → child.stdinOpen = false
  signals : sent log = if undelivered start input log then [(start.target, .kill)] else []

namespace Fares

variable {start child child' : Child} {input : String} {w w' : ω × Log}

theorem condemns {log : Log} (h : Fares start input child log) : Condemns start input log :=
  .of_unreported h.signals h.unreported

/-- Calls that have nothing to do with the input. -/
theorem silent (h : Fares start input child w.2) (hw : Only Call.Silent w w')
    (hasked : asked w'.2 = asked w.2) (hstatus : child'.status = child.status)
    (htarget : child'.target = child.target) (hstdin : child'.stdin = child.stdin)
    (hqueue : child'.pendingInput = child.pendingInput) : Fares start input child' w'.2 := by
  have hopen : child'.stdinOpen = child.stdinOpen := by
    rw [Child.stdinOpen, hstdin, Child.stdinOpen]
  refine ⟨hstatus.trans h.running, htarget.trans h.target,
    (reported_of_asked hasked).trans h.unreported, ?_, ?_, ?_⟩
  · rw [hqueue, hopen]
    exact h.queue
  · rw [hw.undelivered_eq, hopen]
    exact h.closed
  · rw [hw.undelivered_eq, hw.sent_eq fun _ hcall => hcall.signal?]
    exact h.signals

theorem readStream (h : Fares start input child w.2) (host : Host ω) (stream : OutputStream) :
    let r := child.readStream host.logged stream w
    Fares start input r.2.2.1 r.2.2.2.2 := by
  have hreads := (child.readStream_spec stream host w).1
  have htarget : (child.readStream host.logged stream w).2.2.1.target = child.target := by
    rw [Child.target, Child.leadsGroup_readStream, Child.pid_readStream, Child.target]
  have hinput : (child.readStream host.logged stream w).2.2.1.stdin = child.stdin ∧
      (child.readStream host.logged stream w).2.2.1.pendingInput = child.pendingInput := by
    rcases child.readStream_child stream host.logged w with hchild | hchild <;> rw [hchild] <;>
      simp
  exact h.silent (hreads.imp fun _ hcall => hcall.empties.silent)
    (hreads.asked_eq fun _ hcall => hcall.question?) (Child.status_readStream ..) htarget hinput.1
    hinput.2

theorem waitForIo (h : Fares start input child w.2) (host : Host ω) (milliseconds : Nat) :
    Fares start input child (child.waitForIo host.logged milliseconds w).2.2 := by
  have hwaits := Child.waits_waitForIo host milliseconds child w
  exact h.silent (hwaits.imp fun _ hcall => hcall.silent)
    (hwaits.asked_eq fun _ hcall => hcall.question?) rfl rfl rfl rfl

end Fares

/-! ### Giving the child its input -/

namespace Run

def settle (host : Host ω) : Except WriteError Unit × Child × ω → Child × ω
  | (.ok (), child, w) => (child, w)
  | (.error _, child, w) => (child, abandonInput host child w)

theorem feed_eq (host : Host ω) (input : String) (child : Child) (w : ω) :
    feed host input child w = if input.isEmpty then child.closeStdin host w
      else settle host (child.write host (Text.Utf8.encode input) true w) := rfl

theorem flush_eq (host : Host ω) (child : Child) (w : ω) :
    flush host child w =
      if child.hasPendingInput then settle host (child.flushStdin host w) else (child, w) := rfl

/-- The script that gives a child its input does the same. -/
theorem run_feed (host : Host ω) (input : String) (child : Child) (w : ω) :
    (Script.feed input).run host child w = ((), feed host input child w) := by
  rw [Script.feed, feed_eq]
  split
  · rfl
  · rw [Script.run]
    generalize child.write host (Text.Utf8.encode input) true w = r
    obtain ⟨_ | _, child', w'⟩ := r <;> rfl

end Run

/-- A child that is registered to be killed is flushed in the same way. -/
theorem Entry.flush_eq (host : Host ω) {entry : Entry σ} (hkill : entry.killOnInputFailure = true)
    (w : ω) : entry.flush host w =
      let r := Run.flush host entry.child w
      ({ entry with child := r.1 }, r.2) := by
  rw [Entry.flush, Run.flush_eq]
  split
  · generalize entry.child.flushStdin host w = r
    obtain ⟨_ | _, child, w'⟩ := r
    · simp only [hkill]
      rfl
    · rfl
  · rfl

namespace Child

variable {child : Child} {d : Descriptor}

/-- A flush fails if and only if the pipe refuses a write. -/
theorem refuses_flushStdin (host : Host ω) (child : Child) (w : ω × Log) (hd : child.stdin = some d) :
    (child.flushStdin host.logged w).2.2.2.any Call.refuses =
      (w.2.any Call.refuses || !(child.flushStdin host.logged w).1.isOk) := by
  have hclose (child : Child) (w : ω × Log) :
      (child.closeStdin host.logged w).2.2.any Call.refuses = w.2.any Call.refuses :=
    ((empties_closeStdin host child w).imp fun _ hcall => hcall.silent).refuses_eq
  fun_induction flushStdin host.logged child w with
  | case1 child w hp hflag child' w' hc =>
    have hlog := hclose child w
    rw [hc] at hlog
    rw [hlog]
    simp [Except.isOk, Except.toBool]
  | case2 child w hp hflag => simp [Except.isOk, Except.toBool]
  | case3 child w b rest hp hnone => cases hd.symm.trans hnone
  | case4 child w b rest hp d' hd' w' hw
  | case8 child w b rest hp d' hd' w' hw
  | case9 child w b rest hp d' hd' cause w' hw =>
    have hfails := hclose child w'
    rw [log_of_write hw, List.any_append] at hfails
    exact hfails.trans (by simp [Call.refuses, failStdin, Except.isOk, Except.toBool])
  | case5 child w b rest hp d' hd' count w' hw ih
  | case7 child w b rest hp d' hd' w' hw ih =>
    rw [ih hd, log_of_write hw, List.any_append]
    simp [Call.refuses]
  | case6 child w b rest hp d' hd' w' hw =>
    rw [log_of_write hw, List.any_append]
    simp [Call.refuses, Except.isOk, Except.toBool]

/-- What waits after a flush can be written, and nothing waits after one that failed. -/
theorem stdin_flushStdin (host : Host ω) (child : Child) (w : ω × Log) (hd : child.stdin = some d) :
    let r := child.flushStdin host.logged w
    (r.2.1.pendingInput ≠ [] → r.2.1.stdinOpen = true) ∧
      (r.1.isOk = false → r.2.1.stdinOpen = false) := by
  obtain ⟨calls, -, hflushed⟩ := flushStdin_spec host child w hd
  generalize child.flushStdin host.logged w = r at hflushed ⊢
  obtain ⟨result, child', w'⟩ := r
  -- A flush that went well is none that failed.
  have hok (b : Bool) (h : (Except.ok () : Except WriteError Unit).isOk = false) : b = false := by
    cases h
  cases hflushed with
  | waits h hne hlast => exact ⟨fun _ => by simp [stdinOpen, hd], hok _⟩
  | empties h hflag => exact ⟨fun hne => absurd rfl hne, hok _⟩
  | ends h hflag => exact ⟨fun hne => absurd rfl hne, hok _⟩
  | fails h hlast hcause => exact ⟨fun hne => absurd rfl hne, fun _ => rfl⟩

end Child

namespace Fares

variable {start child : Child} {input : String} {w : ω × Log}

/-- A child that was not killed yet is killed because its input cannot be delivered. -/
theorem abandoned (hrunning : child.status = none) (htarget : child.target = start.target)
    (hreported : reported w.2 = []) (hqueue : child.pendingInput = [])
    (hclosed : child.stdinOpen = false) (hundelivered : undelivered start input w.2 = true)
    (hsignals : sent w.2 = []) (host : Host ω) :
    Fares start input child (Run.abandonInput host.logged child w).2 := by
  obtain ⟨hexited, -⟩ | ⟨-, result, hlog⟩ := Child.signal_cases host child w .kill
  · simp [Child.exited, hrunning] at hexited
  · have hsame : asked (Run.abandonInput host.logged child w).2 = asked w.2 := by
      rw [Run.abandonInput, hlog, asked_append]
      exact List.append_nil _
    have hkilled : sent (Run.abandonInput host.logged child w).2 =
        [(start.target, .kill)] := by
      rw [Run.abandonInput, hlog, sent, List.filterMap_append]
      change sent w.2 ++ [(child.target, Signal.kill)] = _
      rw [hsignals, htarget, List.nil_append]
    have hstill : undelivered start input (Run.abandonInput host.logged child w).2 = true := by
      rw [← hundelivered, Run.abandonInput, hlog, undelivered, List.any_append]
      simp [undelivered, Call.refuses]
    refine ⟨hrunning, htarget, (reported_of_asked hsame).trans hreported,
      fun hne => absurd hqueue hne, fun _ => hclosed, ?_⟩
    rw [if_pos hstill]
    exact hkilled

/-- **One attempt to write what waits.** -/
theorem attempt {d : Descriptor} (hrunning : child.status = none)
    (htarget : child.target = start.target) (hreported : reported w.2 = [])
    (hinput : input ≠ "") (hstdin : child.stdin = some d)
    (hdelivered : undelivered start input w.2 = false) (hsignals : sent w.2 = [])
    (host : Host ω) :
    let r := Run.settle host.logged (child.flushStdin host.logged w)
    Fares start input r.1 r.2.2 := by
  have hchild := Child.withoutInput_flushStdin host.logged child w
  have hidle := Child.idle_flushStdin host child w
  have hrefuses := Child.refuses_flushStdin host child w hstdin
  obtain ⟨hqueue, hclosed⟩ := Child.stdin_flushStdin host child w hstdin
  have hsame : sent (child.flushStdin host.logged w).2.2.2 = [] :=
    (hidle.sent_eq fun _ hcall => hcall.gentle.signal?).trans hsignals
  have hquiet : reported (child.flushStdin host.logged w).2.2.2 = [] :=
    (reported_of_asked (hidle.asked_eq fun _ hcall => hcall.question?)).trans hreported
  have hstatus : (child.flushStdin host.logged w).2.1.status = none :=
    (Child.status_of_withoutInput hchild).trans hrunning
  have haim : (child.flushStdin host.logged w).2.1.target = start.target :=
    (Child.target_of_withoutInput hchild).trans htarget
  have hsome : input.isEmpty = false := by simpa using hinput
  -- Nothing was refused before this attempt.
  have hpipe : start.stdinOpen = true ∧ w.2.any Call.refuses = false := by
    simpa [undelivered, hsome] using hdelivered
  rw [hpipe.2, Bool.false_or] at hrefuses
  generalize child.flushStdin host.logged w = r at *
  obtain ⟨result, child', w'⟩ := r
  cases result with
  | ok =>
    have hstill : undelivered start input w'.2 = false := by
      simp only [undelivered, hrefuses, hpipe.1]
      simp [Except.isOk, Except.toBool]
    refine ⟨hstatus, haim, hquiet, fun hne => ⟨hinput, hqueue hne⟩, ?_, ?_⟩
    · intro hundelivered
      cases hstill.symm.trans hundelivered
    · rw [if_neg (by simp [Run.settle, hstill])]
      exact hsame
  | error cause =>
    have hshut : child'.stdinOpen = false := hclosed rfl
    have hundelivered : undelivered start input w'.2 = true := by
      simp only [undelivered, hrefuses, hsome]
      simp [Except.isOk, Except.toBool]
    have hempty : child'.pendingInput = [] := by
      by_contra hne
      cases hshut.symm.trans (hqueue hne)
    exact abandoned hstatus haim hquiet hempty hshut hundelivered hsame host

/-- A flush in some later round. -/
theorem flush (h : Fares start input child w.2) (host : Host ω) :
    Fares start input (Run.flush host.logged child w).1 (Run.flush host.logged child w).2.2 := by
  rw [Run.flush_eq]
  split
  · next hpending =>
    obtain ⟨hinput, hopen⟩ := h.queue (by simpa [Child.hasPendingInput] using hpending)
    obtain ⟨d, hd⟩ := Option.isSome_iff_exists.mp hopen
    -- The pipe is open, so it was not given up.
    have hdelivered : undelivered start input w.2 = false := by
      by_contra hundelivered
      cases hopen.symm.trans (h.closed (Bool.not_eq_false _ ▸ hundelivered))
    have hsignals : sent w.2 = [] := by
      rw [h.signals, hdelivered]
      rfl
    exact attempt h.running h.target h.unreported hinput hd hdelivered hsignals host
  · exact h

/-- A child that was just started is given its input. -/
theorem feed {executable : String} {args : List String} {options : LaunchOptions} {v : ω}
    {host : Host ω} (hspawn : spawn host.logged executable args options (v, []) = (.ok start, w))
    (input : String) :
    Fares start input (Run.feed host.logged input start w).1
      (Run.feed host.logged input start w).2.2 := by
  obtain ⟨-, request, launched, hlog, -⟩ := Tracks.spawn hspawn
  rw [List.nil_append] at hlog
  have hrunning : start.status = none := status_of_spawn hspawn
  have hempty : start.pendingInput = [] := by
    obtain ⟨_, _, -, rfl⟩ := spawn_ok hspawn
    rfl
  have hreported : reported w.2 = [] := by rw [hlog]; rfl
  have hsignals : sent w.2 = [] := by rw [hlog]; rfl
  have hrefuses : w.2.any Call.refuses = false := by rw [hlog]; rfl
  rw [Run.feed_eq]
  by_cases hinput : input = ""
  · have hdelivered (log : Log) : undelivered start input log = false := by
      simp [undelivered, hinput]
    have hclose := Child.idle_closeStdin host start w
    rw [if_pos (by simp [hinput])]
    refine ⟨hrunning, rfl,
      (reported_of_asked (hclose.asked_eq fun _ hcall => hcall.question?)).trans hreported,
      fun hne => absurd rfl hne, fun _ => rfl, ?_⟩
    rw [hdelivered]
    exact (hclose.sent_eq fun _ hcall => hcall.gentle.signal?).trans hsignals
  · rw [if_neg (by simpa using hinput)]
    cases hd : start.stdin with
    | none =>
      have hshut : start.stdinOpen = false := by simp [Child.stdinOpen, hd]
      have hwrite : start.write host.logged (Text.Utf8.encode input) true w =
          (.error (.closed start.pid), start, w) := by simp [Child.write, hshut]
      rw [hwrite]
      exact abandoned hrunning rfl hreported hempty hshut (by simp [undelivered, hinput, hshut])
        hsignals host
    | some d =>
      have hopen : start.stdinOpen = true := by simp [Child.stdinOpen, hd]
      have hnew : start.exited = false := by simp [Child.exited, hrunning]
      have hgiven : (start.given input).status = none := hrunning
      have htarget : (start.given input).target = start.target := rfl
      have hdelivered : undelivered start input w.2 = false := by
        simp [undelivered, hopen, hrefuses]
      rw [Child.write_given hnew hd]
      exact attempt hgiven htarget hreported hinput hd hdelivered hsignals host

end Fares

/-! ### When the end is reported -/

namespace Condemns

variable {start : Child} {input : String} {log calls : Log}

/-- Silent calls change nothing, and after the end they only empty the pipes and release them. -/
theorem append (h : Condemns start input log) (hsilent : ∀ call ∈ calls, call.Silent)
    (hends : ∀ before after, calls = before ++ after → reported (log ++ before) ≠ [] →
      ∀ call ∈ after, call.Empties) : Condemns start input (log ++ calls) := by
  have hw : Only Call.Silent ((), log) ((), log ++ calls) := ⟨calls, rfl, hsilent⟩
  refine ⟨?_, ?_⟩
  · rw [hw.sent_eq fun _ hcall => hcall.signal?, hw.undelivered_eq]
    exact h.signals
  · intro before after hsplit hbefore
    obtain ⟨middle, rfl, hcalls⟩ | ⟨middle, hlog, rfl⟩ := List.append_eq_append_iff.mp hsplit
    · exact hends middle after hcalls hbefore
    · refine List.forall_mem_append.mpr ⟨h.ceases before middle hlog hbefore, ?_⟩
      refine hends [] calls rfl ?_
      rw [List.append_nil, hlog, reported, asked_append, List.filterMap_append]
      exact List.append_ne_nil_of_left_ne_nil hbefore _

theorem empties {w w' : ω × Log} (h : Condemns start input w.2) (hw : Only Call.Empties w w') :
    Condemns start input w'.2 := by
  obtain ⟨calls, hlog, hcalls⟩ := hw
  rw [hlog]
  refine h.append (fun call hcall => (hcalls call hcall).silent) ?_
  rintro before after rfl -
  exact fun call hcall => hcalls call (List.mem_append_right _ hcall)

end Condemns

structure Rests (start : Child) (input : String) (child : Child) (log : Log) : Prop where
  exited : child.exited = true
  queue : child.pendingInput = []
  condemns : Condemns start input log

theorem Rests.readStream {start child : Child} {input : String} {w : ω × Log}
    (h : Rests start input child w.2) (host : Host ω) (stream : OutputStream) :
    let r := child.readStream host.logged stream w
    Rests start input r.2.2.1 r.2.2.2.2 := by
  have hreads := (child.readStream_spec stream host w).1
  refine ⟨?_, ?_, h.condemns.empties (hreads.imp fun _ hcall => hcall.empties)⟩
  · rw [Child.exited, Child.status_readStream]
    exact h.exited
  · rcases child.readStream_child stream host.logged w with hchild | hchild <;> rw [hchild] <;>
      simpa using h.queue

theorem Child.pendingInput_recordExit (host : Host ω) (status : ExitStatus) (child : Child) (w : ω) :
    (child.recordExit host status w).1.pendingInput = [] := by
  simp only [Child.recordExit, Child.closeStdin]

namespace Fares

variable {start child : Child} {input : String} {w w₁ : ω × Log} {call : Call}

/-- Whatever a question is answered, nothing was reported before. -/
theorem condemns_ask (h : Fares start input child w.2) (hlog : w₁.2 = w.2 ++ [call])
    (hsilent : call.Silent) : Condemns start input w₁.2 := by
  rw [hlog]
  refine h.condemns.append (by simpa using hsilent) ?_
  intro before after hsplit hbefore
  cases before with
  | nil =>
    rw [List.append_nil] at hbefore
    exact absurd h.unreported hbefore
  | cons first rest =>
    have hnil : rest ++ after = [] := (List.cons.inj hsplit).2.symm
    rw [(List.append_eq_nil_iff.mp hnil).2]
    exact List.forall_mem_nil _

/-- An answer reports the end. -/
theorem recorded (h : Fares start input child w.2) (hlog : w₁.2 = w.2 ++ [call])
    (hsilent : call.Silent) (host : Host ω) (status : ExitStatus) :
    let r := child.recordExit host.logged status w₁
    Rests start input r.1 r.2.2 := by
  obtain ⟨hrecorded, -⟩ := child.recordExit_child host.logged w₁ status
  refine ⟨?_, child.pendingInput_recordExit .., ?_⟩
  · rw [Child.exited, hrecorded]
    rfl
  · exact (h.condemns_ask hlog hsilent).empties (Child.empties_recordExit host status child w₁)

/-- An answer reports no end. -/
theorem unanswered (h : Fares start input child w.2) (hlog : w₁.2 = w.2 ++ [call])
    (hsilent : call.Silent) {pid : Pid} {answer : ReapResult}
    (hquestion : call.question? = some (pid, answer)) (hanswer : answer.status? = none) :
    Fares start input child w₁.2 := by
  have hw : Only Call.Silent w w₁ := .one call hsilent hlog
  have hasked : asked w₁.2 = asked w.2 ++ [(pid, answer)] := by
    rw [hlog, asked_append]
    simp [asked, hquestion]
  refine ⟨h.running, h.target, ?_, h.queue, ?_, ?_⟩
  · rw [reported_append_of_asked hasked, hanswer, h.unreported]
    rfl
  · rw [hw.undelivered_eq]
    exact h.closed
  · rw [hw.undelivered_eq, hw.sent_eq fun _ hcall => hcall.signal?]
    exact h.signals

/-- A look at the child reports its end or changes nothing. -/
theorem tryWait (h : Fares start input child w.2) (host : Host ω) :
    let r := child.tryWait host.logged w
    (∃ status, r.1 = .ok (some status) ∧ Rests start input r.2.1 r.2.2.2) ∨
      (∀ status, r.1 ≠ .ok (some status)) ∧ Fares start input r.2.1 r.2.2.2 := by
  have hlog : (host.logged.reap child.pid w).2.2 =
      w.2 ++ [.reap child.pid (host.logged.reap child.pid w).1] := rfl
  obtain ⟨status, hstatus, -⟩ | ⟨status, -, hanswer, hlook⟩ | ⟨-, hanswer, hlook⟩ :=
    child.tryWait_cases host.logged w
  · cases h.running.symm.trans hstatus
  · rw [hlook]
    exact Or.inl ⟨status, rfl, h.recorded hlog trivial host status⟩
  · rw [hlook]
    refine Or.inr ⟨?_, h.unanswered hlog trivial rfl hanswer⟩
    intro status
    generalize (host.logged.reap child.pid w).1 = answer
    cases answer <;> exact nofun

/-- So does waiting for its end. -/
theorem wait (h : Fares start input child w.2) (host : Host ω) :
    let r := child.wait host.logged w
    (∃ status, r.1 = .ok status ∧ Rests start input r.2.1 r.2.2.2) ∨
      (∃ cause, r.1 = .error cause) ∧ Fares start input r.2.1 r.2.2.2 := by
  have hlog : (host.logged.await child.pid w).2.2 =
      w.2 ++ [.await child.pid (host.logged.await child.pid w).1] := rfl
  obtain ⟨status, hstatus, -⟩ | ⟨status, -, -, hwait⟩ | ⟨-, hanswer, cause, hwait⟩ :=
    child.wait_cases host.logged w
  · cases h.running.symm.trans hstatus
  · rw [hwait]
    exact Or.inl ⟨status, rfl, h.recorded hlog trivial host status⟩
  · rw [hwait]
    exact Or.inr ⟨⟨cause, rfl⟩, h.unanswered hlog trivial rfl hanswer⟩

end Fares

end Chaperone
