import Chaperone.Proofs.Child.Exit
import Chaperone.Proofs.Child.Hom
import Chaperone.Proofs.Child.Start
import Chaperone.Run

/-!
# What a run to the end gives

A run takes turns in writing, reading and asking for the end.  `Run.Collects` is what holds between
the rounds: of each stream the bytes received are those collected and then the residue of the
child.  `Run.Outcome` lists how rounds can end.

* `Run.round_spec`: from one round to the next.
* `runProgram_spec`: a run gives the status that was reported and the text of all bytes that were
  read, unless a call fails or it runs out of fuel.
* `runProgram_logged`: with a log a run gives what it gives without one.
-/

namespace Chaperone

open Text.Utf8

variable {ω : Type}

namespace Run

def collected (run : Run) : OutputStream → List UInt8
  | .stdout => run.stdout
  | .stderr => run.stderr

/-- What holds of a program between two rounds. -/
structure Collects (out : OutputStream → Option Descriptor) (run : Run) (log : Log) : Prop where
  flow : Flow out run.collected run.child log
  status : run.child.status = none
  reported : reported log = []

def answer (out : OutputStream → Option Descriptor) (log : Log) (status : ExitStatus) : RunResult :=
  ⟨status.code, lossy (received (out .stdout) log), lossy (received (out .stderr) log)⟩

/-! ### Writing -/

theorem withoutInput_feed (host : Host ω) (input : String) (child : Child) (w : ω) :
    (feed host input child w).1.withoutInput = child.withoutInput := by
  have hwrite := child.withoutInput_write host (encode input) true w
  simp only [feed]
  split
  · exact child.withoutInput_closeStdin host w
  · generalize child.write host (encode input) true w = r at hwrite ⊢
    obtain ⟨result, child', w'⟩ := r
    cases result <;> exact hwrite

theorem tells_feed (host : Host ω) (input : String) (child : Child) (w : ω × Log) :
    Only Call.Tells w (feed host.logged input child w).2 := by
  have hwrite := Child.tells_write host child w (encode input) true
  simp only [feed]
  split
  · exact Child.tells_closeStdin host child w
  · generalize child.write host.logged (encode input) true w = r at hwrite ⊢
    obtain ⟨result, child', w'⟩ := r
    cases result with
    | ok => exact hwrite
    | error cause => exact hwrite.trans (Child.tells_signal host child' w' .kill)

theorem withoutInput_flush (host : Host ω) (child : Child) (w : ω) :
    (flush host child w).1.withoutInput = child.withoutInput := by
  have hflush := Child.withoutInput_flushStdin host child w
  simp only [flush]
  split
  · generalize child.flushStdin host w = r at hflush ⊢
    obtain ⟨result, child', w'⟩ := r
    cases result <;> exact hflush
  · rfl

theorem tells_flush (host : Host ω) (child : Child) (w : ω × Log) :
    Only Call.Tells w (flush host.logged child w).2 := by
  have hflush := Child.tells_flushStdin host child w
  simp only [flush]
  split
  · generalize child.flushStdin host.logged w = r at hflush ⊢
    obtain ⟨result, child', w'⟩ := r
    cases result with
    | ok => exact hflush
    | error cause => exact hflush.trans (Child.tells_signal host child' w' .kill)
  · exact .refl _ _

/-! ### Reading -/

section
variable {out : OutputStream → Option Descriptor} {run : Run} {w : ω × Log}

theorem flow_collect (run : Run) (h : Flow out run.collected run.child w.2) (hout : Apart out)
    (host : Host ω) {m : Run × ω × Log} (hm : run.collect host.logged w = m) :
    Flow out m.1.collected m.1.child m.2.2 := by
  subst hm
  have hread := (h.readStream hout host .stdout).readStream hout host .stderr
  refine ⟨hread.pipe, ?_⟩
  intro stream
  rw [collect, hread.received stream]
  cases stream <;> rfl

theorem collect_child (host : Host ω) (run : Run) (w : ω) :
    (run.collect host w).1.child.status = run.child.status ∧
      ∀ stream, (run.collect host w).1.child.residue stream = [] := by
  simp only [collect]
  refine ⟨by rw [Child.status_readStream, Child.status_readStream], ?_⟩
  intro stream
  cases stream
  · rw [Child.residue_readStream_of_ne _ _ _ _ (by decide)]
    exact Child.residue_readStream ..
  · exact Child.residue_readStream ..

theorem asked_collect (host : Host ω) (run : Run) (w : ω × Log) :
    asked (run.collect host.logged w).2.2 = asked w.2 := by
  have hread (child : Child) (stream : OutputStream) (w : ω × Log) :
      asked (child.readStream host.logged stream w).2.2.2.2 = asked w.2 :=
    (child.readStream_spec stream host w).1.asked_eq fun _ h => h.question?
  exact (hread ..).trans (hread ..)

/-- When nothing is left in a residue, what was collected is all that was received. -/
theorem result_eq {child : Child} (h : Flow out run.collected child w.2)
    (hempty : ∀ stream, child.residue stream = []) (status : ExitStatus) :
    run.result status = answer out w.2 status := by
  have hall (stream : OutputStream) : received (out stream) w.2 = run.collected stream := by
    rw [h.received stream, hempty stream, List.append_nil]
  rw [answer, hall, hall]
  rfl

/-! ### Asking for the end -/

theorem pipe_of_closed {child : Child} (h : child.hasOpenOutput = false) (stream : OutputStream) :
    child.pipe stream = none := by
  simp only [Child.hasOpenOutput, Bool.or_eq_false_iff, Option.isSome_eq_false_iff,
    Option.isNone_iff_eq_none] at h
  cases stream
  · exact h.1.1.1
  · exact h.1.1.2

/-- Without output pipes there is nothing to keep when the exit is recorded. -/
theorem residue_recordExit {child : Child} (h : ∀ stream, child.pipe stream = none)
    (host : Host ω) (status : ExitStatus) (w : ω) (stream : OutputStream) :
    (child.recordExit host status w).1.residue stream = child.residue stream := by
  simp only [Child.recordExit, Child.keepRest, Child.releasePipe, Child.closeStdin, h]
  cases stream <;> rfl

/-- How rounds end.  If they go on, so many answers have reported no end. -/
def Outcome (out : OutputStream → Option Descriptor) (count : Nat) :
    (Run × ω × Log) ⊕ (Except Error RunResult × ω × Log) → Prop
  | .inl (run, w) => run.Collects out w.2 ∧ silences w.2 = count
  | .inr (.ok result, w) => ∃ status, reported w.2 = [status] ∧ result = answer out w.2 status
  | .inr (.error _, w) => ∃ call ∈ w.2, call.fails

theorem fails_of_await (host : Host ω) (pid : Pid) (w : ω × Log)
    (hr : (ReapResult.ofAwait (host.logged.await pid w).1).status? = none) :
    ∃ call ∈ (host.logged.await pid w).2.2, call.fails := by
  refine ⟨.await pid (host.logged.await pid w).1, by simp [Host.logged], ?_⟩
  cases h : (host.logged.await pid w).1 with
  | ok word =>
    rw [h] at hr
    cases hr
  | error errno =>
    rw [h] at hr
    simp only [ReapResult.ofAwait, ReapResult.status?] at hr
    split at hr
    · cases hr
    · next herrno => exact bne_iff_ne.mpr herrno

theorem fails_of_reap (host : Host ω) (pid : Pid) (w : ω × Log)
    (hr : (host.logged.reap pid w).1.status? = none) (errno : Errno)
    (hfailed : (host.logged.reap pid w).1 = .failed errno) :
    ∃ call ∈ (host.logged.reap pid w).2.2, call.fails := by
  refine ⟨.reap pid (host.logged.reap pid w).1, by simp [Host.logged], ?_⟩
  rw [hfailed] at hr ⊢
  simp only [ReapResult.status?] at hr
  split at hr
  · cases hr
  · next herrno => exact bne_iff_ne.mpr herrno

/-- With all output at its end the runner waits for the end of the program. -/
theorem outcome_awaitEnd (h : run.Collects out w.2) (hout : Apart out) (host : Host ω)
    (hempty : ∀ stream, run.child.residue stream = []) (hclosed : run.child.hasOpenOutput = false) :
    Outcome out (silences w.2 + 1) (run.awaitEnd host.logged w) := by
  rw [awaitEnd]
  have hflow := h.flow.wait hout host h.status
  have hasked : asked (host.logged.await run.child.pid w).2.2 = asked w.2 ++
      [(run.child.pid, .ofAwait (host.logged.await run.child.pid w).1)] := asked_append w.2 _
  have hreported := reported_append_of_asked hasked
  rw [h.reported] at hreported
  cases hr : (ReapResult.ofAwait (host.logged.await run.child.pid w).1).status? with
  | some status =>
    rw [run.child.wait_of_report host.logged w h.status hr] at hflow ⊢
    rw [hr] at hreported
    have hquiet := Child.asked_recordExit host status run.child
      (host.logged.await run.child.pid w).2
    refine ⟨status, (reported_of_asked hquiet).trans hreported,
      result_eq hflow ?_ status⟩
    intro stream
    · rw [residue_recordExit (pipe_of_closed hclosed), hempty]
  | none =>
    obtain ⟨cause, hwait⟩ := run.child.wait_of_failure host.logged w h.status hr
    rw [hwait]
    exact fails_of_await host run.child.pid w hr

/-- While there may be output the runner asks for the end and waits for the pipes. -/
theorem outcome_lookForEnd (h : run.Collects out w.2) (hout : Apart out) (host : Host ω) :
    Outcome out (silences w.2 + 1) (run.lookForEnd host.logged w) := by
  rw [lookForEnd]
  have hflow := h.flow.tryWait hout host h.status
  have hasked : asked (host.logged.reap run.child.pid w).2.2 = asked w.2 ++
      [(run.child.pid, (host.logged.reap run.child.pid w).1)] := asked_append w.2 _
  have hreported := reported_append_of_asked hasked
  rw [h.reported] at hreported
  cases hr : (host.logged.reap run.child.pid w).1.status? with
  | some status =>
    rw [run.child.tryWait_of_report host.logged w h.status hr] at hflow ⊢
    rw [hr] at hreported
    have hquiet := Child.asked_recordExit host status run.child (host.logged.reap run.child.pid w).2
    generalize run.child.recordExit host.logged status _ = recorded at hflow hquiet ⊢
    have hcollected := flow_collect { run with child := recorded.1 } hflow hout host rfl
    have hempty := (collect_child host.logged { run with child := recorded.1 } recorded.2).2
    have hasked' := asked_collect host { run with child := recorded.1 } recorded.2
    refine ⟨status, ?_, result_eq hcollected hempty status⟩
    exact (reported_of_asked (hasked'.trans hquiet)).trans hreported
  | none =>
    have hfails := fails_of_reap host run.child.pid w hr
    rw [run.child.tryWait_of_silence host.logged w h.status hr] at hflow ⊢
    rw [hr] at hreported
    generalize host.logged.reap run.child.pid w = reaped at hflow hreported hasked hr hfails ⊢
    obtain ⟨result, w'⟩ := reaped
    cases result with
    | ended word => cases hr
    | failed errno => exact hfails errno rfl
    | running =>
      have hwaits := Child.waits_waitForIo host ioWait run.child w'
      have hquiet := hwaits.asked_eq fun _ hcall => hcall.question?
      dsimp only [ReapResult.silence]
      generalize hio : run.child.waitForIo host.logged ioWait w' = waited at hwaits hquiet ⊢
      obtain ⟨result, w''⟩ := waited
      cases result with
      | error cause => exact Child.fails_of_waitForIo hio
      | ok =>
        refine ⟨⟨hflow.quiet hwaits fun _ hcall => hcall.payload, h.status,
          (reported_of_asked hquiet).trans hreported⟩, ?_⟩
        exact (silences_of_asked hquiet).trans (silences_succ_of_asked hasked hr)

theorem round_spec (h : run.Collects out w.2) (hout : Apart out) (host : Host ω) :
    Outcome out (silences w.2 + 1) (round host.logged (run, w)) := by
  have htells := tells_flush host run.child w
  have hchild := withoutInput_flush host.logged run.child w
  simp only [round]
  generalize flush host.logged run.child w = flushed at htells hchild ⊢
  have hflow := h.flow.tells hchild htells
  have hstatus := (Child.status_of_withoutInput hchild).trans h.status
  have hcollect := flow_collect { run with child := flushed.1 } hflow hout host rfl
  obtain ⟨hkept, hempty⟩ := collect_child host.logged { run with child := flushed.1 } flushed.2
  have hasked := asked_collect host { run with child := flushed.1 } flushed.2
  generalize collect host.logged { run with child := flushed.1 } flushed.2 = collected
    at hcollect hkept hempty hasked ⊢
  have hquiet : asked collected.2.2 = asked w.2 :=
    hasked.trans (htells.asked_eq fun _ hcall => hcall.question?)
  have hcollects : collected.1.Collects out collected.2.2 :=
    ⟨hcollect, hkept.trans hstatus, (reported_of_asked hquiet).trans h.reported⟩
  rw [← silences_of_asked hquiet]
  split
  · next hdone =>
    have hclosed : collected.1.child.hasOpenOutput = false := by simp_all
    exact outcome_awaitEnd hcollects hout host hempty hclosed
  · exact outcome_lookForEnd hcollects hout host

theorem iterate_round (h : run.Collects out w.2) (hout : Apart out) (host : Host ω)
    (fuel : Nat) :
    Outcome out (silences w.2 + fuel) (iterate (round host.logged) fuel (run, w)) := by
  induction fuel generalizing run w with
  | zero => exact ⟨h, rfl⟩
  | succ fuel ih =>
    have hround := round_spec h hout host
    rw [iterate]
    generalize round host.logged (run, w) = result at hround ⊢
    rcases result with ⟨run', w'⟩ | result
    · obtain ⟨hcollects, hsilences⟩ := hround
      rw [Nat.add_comm fuel, ← Nat.add_assoc, ← hsilences]
      exact ih hcollects
    · obtain ⟨result, w'⟩ := result
      cases result <;> exact hround

end

/-- A run begins with nothing collected. -/
theorem collects_start {executable : String} {args : List String} {options : LaunchOptions}
    {child : Child} {w : ω} {w' : ω × Log} (host : Host ω) (input : String)
    (hspawn : spawn host.logged executable args options (w, []) = (.ok child, w')) :
    Collects child.pipe { child := (feed host.logged input child w').1 }
      (feed host.logged input child w').2.2 ∧
        silences (feed host.logged input child w').2.2 = 0 := by
  have hchild := withoutInput_feed host.logged input child w'
  have htells := tells_feed host input child w'
  have hasked : asked (feed host.logged input child w').2.2 = asked [] :=
    (htells.asked_eq fun _ hcall => hcall.question?).trans (asked_of_spawn hspawn)
  have hflow := (Flow.spawn hspawn).tells hchild htells
  refine ⟨⟨⟨hflow.pipe, ?_⟩, ?_, reported_of_asked hasked⟩, silences_of_asked hasked⟩
  · intro stream
    rw [hflow.received stream]
    cases stream <;> rfl
  · exact (Child.status_of_withoutInput hchild).trans (status_of_spawn hspawn)

end Run

/-- **What a run to the end gives** when its program could be started.  It is an error only if a
call fails, and nothing only if as many answers as it has fuel have reported no end. -/
theorem runProgram_spec (host : Host ω) {executable : String} {args : List String}
    {options : LaunchOptions} {child : Child} {w : ω} {w₁ w₂ : ω × Log} {fuel : Nat}
    {input : String} {result : Option (Except Error RunResult)}
    (hspawn : spawn host.logged executable args options (w, []) = (.ok child, w₁))
    (hrun : runProgram host.logged fuel executable args input options (w, []) = (result, w₂)) :
    match result with
    | none => silences w₂.2 = fuel
    | some (.ok result) =>
      ∃ status, reported w₂.2 = [status] ∧ result = Run.answer child.pipe w₂.2 status
    | some (.error _) => ∃ call ∈ w₂.2, call.fails := by
  obtain ⟨hcollects, hsilences⟩ := Run.collects_start host input hspawn
  have houtcome := Run.iterate_round hcollects (apart_of_spawn hspawn) host fuel
  rw [hsilences, Nat.zero_add] at houtcome
  simp only [runProgram, hspawn] at hrun
  generalize iterate (Run.round host.logged) fuel _ = r at hrun houtcome
  rcases r with ⟨run, w'⟩ | ⟨result, w'⟩
  · obtain ⟨rfl, rfl⟩ := Prod.mk.inj hrun
    exact houtcome.2
  · obtain ⟨rfl, rfl⟩ := Prod.mk.inj hrun
    cases result <;> exact houtcome

/-! ### Without a log -/

namespace Run

variable {ω' : Type} {host : Host ω} {host' : Host ω'} {f : ω → ω'}

theorem feed_hom (h : Host.Hom host host' f) (input : String) (child : Child) (w : ω) :
    feed host' input child (f w) = (feed host input child w).map id f := by
  simp only [feed]
  split
  · exact Child.closeStdin_hom h child w
  · rw [Child.write_hom h]
    generalize child.write host (encode input) true w = r
    obtain ⟨cause | _, child', w'⟩ := r
    · simp only [Prod.map_apply, id, abandonInput, Child.signal_hom h, Prod.map_snd]
    · rfl

theorem flush_hom (h : Host.Hom host host' f) (child : Child) (w : ω) :
    flush host' child (f w) = (flush host child w).map id f := by
  simp only [flush]
  split
  · rw [Child.flushStdin_hom h]
    generalize child.flushStdin host w = r
    obtain ⟨cause | _, child', w'⟩ := r
    · simp only [Prod.map_apply, id, abandonInput, Child.signal_hom h, Prod.map_snd]
    · rfl
  · rfl

theorem collect_hom (h : Host.Hom host host' f) (run : Run) (w : ω) :
    run.collect host' (f w) = (run.collect host w).map id f := by
  simp only [collect, Child.readStream_hom h, Prod.map_fst, Prod.map_snd, id]
  rfl

theorem awaitEnd_hom (h : Host.Hom host host' f) (run : Run) (w : ω) :
    run.awaitEnd host' (f w) = (run.awaitEnd host w).map (.map id f) (.map id f) := by
  simp only [awaitEnd, Child.wait_hom h]
  generalize run.child.wait host w = r
  obtain ⟨cause | status, child, w'⟩ := r <;> rfl

theorem lookForEnd_hom (h : Host.Hom host host' f) (run : Run) (w : ω) :
    run.lookForEnd host' (f w) = (run.lookForEnd host w).map (.map id f) (.map id f) := by
  simp only [lookForEnd, Child.tryWait_hom h]
  generalize run.child.tryWait host w = r
  obtain ⟨cause | _ | status, child, w'⟩ := r
  · rfl
  · simp only [Prod.map_apply, id, Child.waitForIo_hom h]
    generalize child.waitForIo host ioWait w' = r
    obtain ⟨cause | _, w''⟩ := r <;> rfl
  · simp only [Prod.map_apply, id, collect_hom h]
    rfl

theorem round_hom (h : Host.Hom host host' f) (run : Run) (w : ω) :
    round host' (run, f w) = (round host (run, w)).map (.map id f) (.map id f) := by
  simp only [round, flush_hom h, collect_hom h, Prod.map_fst, Prod.map_snd, id]
  split
  · exact awaitEnd_hom h ..
  · exact lookForEnd_hom h ..

theorem iterate_round_hom (h : Host.Hom host host' f) (fuel : Nat) (run : Run) (w : ω) :
    iterate (round host') fuel (run, f w) =
      (iterate (round host) fuel (run, w)).map (.map id f) (.map id f) :=
  iterate_map (fun _ => round_hom h _ _) fuel (run, w)

end Run

/-- A run is carried over. -/
theorem runProgram_hom {ω' : Type} {host : Host ω} {host' : Host ω'} {f : ω → ω'}
    (h : Host.Hom host host' f) (fuel : Nat) (executable : String) (args : List String)
    (input : String) (options : LaunchOptions) (w : ω) :
    runProgram host' fuel executable args input options (f w) =
      (runProgram host fuel executable args input options w).map id f := by
  simp only [runProgram, spawn_hom h]
  generalize spawn host executable args options w = r
  obtain ⟨cause | child, w'⟩ := r
  · rfl
  · simp only [Prod.map_apply, id, Run.feed_hom h, Prod.map_fst, Prod.map_snd,
      Run.iterate_round_hom h]
    generalize iterate (Run.round host) fuel _ = r
    rcases r with ⟨run, w''⟩ | ⟨result, w''⟩ <;> rfl

/-- A log changes nothing about a run. -/
theorem runProgram_logged (host : Host ω) (fuel : Nat) (executable : String) (args : List String)
    (input : String) (options : LaunchOptions) (w : ω × Log) :
    runProgram host fuel executable args input options w.1 =
      (runProgram host.logged fuel executable args input options w).map id Prod.fst :=
  runProgram_hom host.forget ..

end Chaperone
