import Chaperone.Proofs.Agreement
import Chaperone.Proofs.Child.Refusal

/-!
# Programs that do not take their input

Both ways to run a program to its end keep `Fares` from step to step, whatever the pipes answer, and
a look that reports the end leaves the child at rest (`Rests`).  So the signals of whole runs follow
from what became of the input (`killed_iff_undelivered`), and a run whose program is killed ends as
any other.
-/

namespace Chaperone

variable {σ ω : Type}

/-! ### Runs of single programs -/

namespace Run

variable {start : Child} {input : String} {run : Run} {w : ω × Log}

/-- What holds of a run between two rounds and at its end.  An error is given only as long as no
end was reported. -/
def Upholds (start : Child) (input : String) :
    (Run × ω × Log) ⊕ (Except Error RunResult × ω × Log) → Prop :=
  Sum.elim (fun m => Fares start input m.1.child m.2.2) fun m =>
    Condemns start input m.2.2 ∧ ∀ cause, m.1 = .error cause → reported m.2.2 = []

theorem fares_collect (run : Run) (h : Fares start input run.child w.2) (host : Host ω) :
    let m := run.collect host.logged w
    Fares start input m.1.child m.2.2 :=
  (h.readStream host .stdout).readStream host .stderr

theorem upholds_awaitEnd (h : Fares start input run.child w.2) (host : Host ω) :
    Upholds start input (run.awaitEnd host.logged w) := by
  have hwait := h.wait host
  rw [awaitEnd]
  generalize run.child.wait host.logged w = r at hwait ⊢
  obtain ⟨result, child, w'⟩ := r
  obtain ⟨status, rfl, hrests⟩ | ⟨⟨cause, rfl⟩, hfares⟩ := hwait
  · exact ⟨hrests.condemns, by rintro cause ⟨⟩⟩
  · exact ⟨hfares.condemns, fun _ _ => hfares.unreported⟩

theorem upholds_lookForEnd (h : Fares start input run.child w.2) (host : Host ω) :
    Upholds start input (run.lookForEnd host.logged w) := by
  have hlook := h.tryWait host
  rw [lookForEnd]
  generalize run.child.tryWait host.logged w = r at hlook ⊢
  obtain ⟨result, child, w'⟩ := r
  obtain ⟨status, rfl, hrests⟩ | ⟨hnone, hfares⟩ := hlook
  · have hcollected := (hrests.readStream host .stdout).readStream host .stderr
    exact ⟨hcollected.condemns, by rintro cause ⟨⟩⟩
  · obtain cause | _ | status := result
    · exact ⟨hfares.condemns, fun _ _ => hfares.unreported⟩
    · have hwaited := hfares.waitForIo host ioWait
      dsimp only
      generalize child.waitForIo host.logged ioWait w' = r at hwaited ⊢
      obtain ⟨cause | _, w''⟩ := r
      · exact ⟨hwaited.condemns, fun _ _ => hwaited.unreported⟩
      · exact hwaited
    · exact absurd rfl (hnone status)

theorem upholds_round (h : Fares start input run.child w.2) (host : Host ω) :
    Upholds start input (round host.logged (run, w)) := by
  have hflush := h.flush host
  simp only [round]
  generalize flush host.logged run.child w = flushed at hflush ⊢
  have hcollect := fares_collect { run with child := flushed.1 } hflush host
  split
  · exact upholds_awaitEnd hcollect host
  · exact upholds_lookForEnd hcollect host

/-- **The rounds of a run**, as many as there are. -/
theorem upholds_rounds (run : Run) (h : Fares start input run.child w.2) (host : Host ω)
    (fuel : Nat) :
    Upholds start input (iterate (round host.logged) fuel (run, w)) :=
  iterate_keeps (fun _ hrun => upholds_round hrun host) fuel h

end Run

/-- A run that gives no result was not told of an end. -/
theorem condemns_runProgram {host : Host ω} {executable : String} {args : List String}
    {options : LaunchOptions} {start : Child} {w : ω} {w₁ w₂ : ω × Log} {fuel : Nat}
    {input : String} {result : Option (Except Error RunResult)}
    (hspawn : spawn host.logged executable args options (w, []) = (.ok start, w₁))
    (hrun : runProgram host.logged fuel executable args input options (w, []) = (result, w₂)) :
    Condemns start input w₂.2 ∧
      ((∀ given, result ≠ some (.ok given)) → reported w₂.2 = []) := by
  have hfed := Fares.feed hspawn input
  simp only [runProgram, hspawn] at hrun
  generalize Run.feed host.logged input start w₁ = fed at hfed hrun
  have hrounds := Run.upholds_rounds { child := fed.1 } hfed host fuel
  generalize iterate (Run.round host.logged) fuel _ = r at hrounds hrun
  rcases r with ⟨last, w'⟩ | ⟨given, w'⟩
  · obtain ⟨rfl, rfl⟩ := Prod.mk.inj hrun
    have hfares : Fares start input last.child w'.2 := hrounds
    exact ⟨hfares.condemns, fun _ => hfares.unreported⟩
  · obtain ⟨rfl, rfl⟩ := Prod.mk.inj hrun
    obtain ⟨hcondemns, hunreported⟩ := hrounds
    refine ⟨hcondemns, fun hnone => ?_⟩
    cases given with
    | error cause => exact hunreported cause rfl
    | ok result => exact absurd rfl (hnone result)

/-! ### Supervised programs -/

/-- An entry whose child is killed when its input fails, and whose callbacks ask nothing of it. -/
structure Entry.Tends (start : Child) (input : String) (entry : Entry σ) (log : Log) : Prop where
  kills : entry.killOnInputFailure = true
  calm : entry.callbacks.Calm
  child : Fares start input entry.child log ∨ Rests start input entry.child log

namespace Entry

variable {start : Child} {input : String} {entry : Entry σ} {s : σ} {w : ω × Log}

theorem Tends.condemns (h : entry.Tends start input w.2) : Condemns start input w.2 := by
  rcases h.child with hfares | hrests
  · exact hfares.condemns
  · exact hrests.condemns

/-- Text is handed over without a call. -/
theorem Tends.emit (h : entry.Tends start input w.2) (host : Host ω) (stream : OutputStream)
    (text : String) :
    let m := entry.emit host.logged stream text s w
    m.1.Tends start input m.2.2.2 := by
  simp only [Entry.emit]
  split
  · exact h
  · split
    · exact h
    · next callback hcallback =>
      obtain ⟨result, hdone⟩ := h.calm stream callback hcallback (entry.occasion host.logged w) text
        entry.callbacks.memory s
      rw [hdone]
      exact ⟨h.kills, h.calm.remember _, h.child⟩

theorem Tends.withDecoder (h : entry.Tends start input w.2) (decoder : Text.Utf8.Decoder)
    (stream : OutputStream) : (entry.withDecoder decoder stream).Tends start input w.2 := by
  cases stream <;> exact ⟨h.kills, h.calm, h.child⟩

theorem Tends.deliver (h : entry.Tends start input w.2) (host : Host ω) (stream : OutputStream) :
    let m := entry.deliver host.logged stream s w
    m.1.Tends start input m.2.2.2 := by
  rw [deliver_eq]
  have hread : ({ entry with child := (entry.child.readStream host.logged stream w).2.2.1 } :
      Entry σ).Tends start input (entry.child.readStream host.logged stream w).2.2.2.2 :=
    ⟨h.kills, h.calm, h.child.imp (·.readStream host stream) (·.readStream host stream)⟩
  exact (hread.withDecoder _ stream).emit host stream _

theorem Tends.flush (h : entry.Tends start input w.2) (host : Host ω) :
    (entry.flush host.logged w).1.Tends start input (entry.flush host.logged w).2.2 := by
  rw [flush_eq host.logged h.kills]
  refine ⟨h.kills, h.calm, ?_⟩
  rcases h.child with hfares | hrests
  · exact Or.inl (hfares.flush host)
  · -- After the end nothing waits, so nothing is written.
    have hflush : Run.flush host.logged entry.child w = (entry.child, w) := by
      simp [Run.flush_eq, Child.hasPendingInput, hrests.queue]
    rw [hflush]
    exact Or.inr hrests

theorem Tends.ask (h : entry.Tends start input w.2) (host : Host ω) :
    let r := entry.child.tryWait host.logged w
    ({ entry with child := r.2.1 } : Entry σ).Tends start input r.2.2.2 := by
  refine ⟨h.kills, h.calm, ?_⟩
  rcases h.child with hfares | hrests
  · rcases hfares.tryWait host with ⟨status, -, hrests⟩ | ⟨-, hfares⟩
    · exact Or.inr hrests
    · exact Or.inl hfares
  · obtain ⟨status, hstatus⟩ := Option.isSome_iff_exists.mp hrests.exited
    have hlook : entry.child.tryWait host.logged w = (.ok (some status), entry.child, w) := by
      simp only [Child.tryWait, hstatus]
    rw [hlook]
    exact Or.inr hrests

theorem Tends.conclude (h : entry.Tends start input w.2) (host : Host ω) (status : ExitStatus) :
    let m := entry.conclude host.logged status s w
    m.1.Tends start input m.2.2.2 := by
  refine ⟨h.kills, ?_, h.child⟩
  intro stream
  cases stream with
  | stdout => exact h.calm .stdout
  | stderr => exact h.calm .stderr

theorem parts_tends (host : Host ω) (start : Child) (input : String) :
    Parts host.logged fun m m' : Entry σ × σ × ω × Log =>
      m.1.Tends start input m.2.2.2 → m'.1.Tends start input m'.2.2.2 where
  trans h g htends := g (h htends)
  flush _ _ _ htends := htends.flush host
  deliver _ _ _ stream htends := htends.deliver host stream
  deliverTail _ _ _ stream htends := (htends.withDecoder _ stream).emit host stream _
  ask _ _ _ htends := htends.ask host
  conclude _ _ _ status htends := htends.conclude host status

/-- The entry of a program that was launched with its input. -/
theorem tends_launched {executable : String} {args : List String} {options : LaunchOptions} {v : ω}
    {host : Host ω} (hspawn : spawn host.logged executable args options (v, []) = (.ok start, w))
    (input : String) (completed : RunResult → σ → σ) (s : σ) :
    let m := Entry.launched host.logged start (.collecting input completed) true s w
    m.1.Tends start input m.2.2.2 := by
  have hfed := Fares.feed hspawn input
  simp only [Entry.launched, Callbacks.collecting, Script.run_bind, Run.run_feed]
  refine ⟨rfl, ?_, Or.inl hfed⟩
  intro stream
  cases stream <;> rintro _ ⟨⟩ occasion text memory s <;> exact ⟨_, rfl⟩

end Entry

namespace Life

variable {τ : Type} {start : Child} {input : String} {life : Life σ τ}

def Tends (start : Child) (input : String) (life : Life σ τ) : Prop :=
  (∃ entry, life.supervisor.entries = [entry] ∧ entry.Tends start input life.calls) ∨
    life.supervisor.entries = [] ∧ Condemns start input life.calls

theorem Tends.condemns (h : life.Tends start input) : Condemns start input life.calls := by
  rcases h with ⟨entry, -, hentry⟩ | ⟨-, hcalls⟩
  · rcases hentry.child with hfares | hrests
    · exact hfares.condemns
    · exact hrests.condemns
  · exact hcalls

theorem Tends.look (h : life.Tends start input) (host : Host ω) (moment : σ × ω) :
    (life.look host moment).Tends start input := by
  obtain ⟨⟨entries⟩, kept, calls⟩ := life
  rcases h with ⟨entry, hentries, hentry⟩ | ⟨hentries, hcalls⟩
  · obtain rfl : entries = [entry] := hentries
    have hpoll := (Entry.parts_tends host start input).poll entry (moment.1, kept)
      (moment.2, calls) hentry
    simp only [Life.look, Supervisor.poll, Supervisor.pollAll]
    generalize entry.poll host.logged (moment.1, kept) (moment.2, calls) = m at hpoll ⊢
    cases hfinished : m.1.finished with
    | false => exact Or.inl ⟨m.1, by simp [hfinished], hpoll⟩
    | true => exact Or.inr ⟨by simp [hfinished], hpoll.condemns⟩
  · obtain rfl : entries = [] := hentries
    exact Or.inr ⟨rfl, hcalls⟩

theorem Tends.looks (h : life.Tends start input) (host : Host ω) (moments : List (σ × ω)) :
    (life.looks host moments).Tends start input := by
  induction moments generalizing life with
  | nil => exact h
  | cons moment moments ih => exact ih (h.look host moment)

/-- Once the end of a supervised program is reported its result has been handed over, once. -/
theorem kept_of_reported {host : Host ω} {executable : String} {args : List String}
    {options : LaunchOptions} {child : Child} {w : ω} {w' : ω × Log}
    (hspawn : spawn host.logged executable args options (w, []) = (.ok child, w'))
    {input : String} {completed : RunResult → σ → σ} {s : σ} {moments : List (σ × ω)}
    {last : Life σ (List RunResult)}
    (hlast : (launchWithInput host executable args input options (noteResult completed) s []
      w).looks host moments = last)
    {status : ExitStatus} (hstatus : status ∈ reported last.calls) :
    last.kept = [Run.answer child.pipe last.calls status] := by
  rcases stage_collecting host hspawn hlast with hlife | hlife
  · rw [hlife.reported] at hstatus
    cases hstatus
  · obtain ⟨seen, hreported, hkept⟩ := hlife.answer
    rw [hreported, List.mem_singleton] at hstatus
    rw [hkept, hstatus]

end Life

/-- **A program is killed if and only if its input cannot be delivered**, and it makes no other
difference.  It is killed once, whether its pipe is missing, refuses the first write or refuses a
later one, and no other signal is sent to it.  When its end is reported the run gives its result,
the text of all that was read with the status that was reported: `runProgram` returns it and a
supervisor hands it over, once.  A run gives an error only if a call to wait or to look fails.
Without a log run and launch go the same way. -/
theorem killed_iff_undelivered (host : Host ω) {executable : String} {args : List String}
    {options : LaunchOptions} {start : Child} {w : ω} {w₁ : ω × Log}
    (hspawn : spawn host.logged executable args options (w, []) = (.ok start, w₁))
    (input : String) :
    (∀ fuel : Nat,
      let run := runProgram host.logged fuel executable args input options (w, [])
      let log := run.2.2
      Condemns start input log ∧
        (∀ status ∈ reported log, run.1 = some (.ok (Run.answer start.pipe log status))) ∧
        (∀ cause, run.1 = some (.error cause) → ∃ call ∈ log, call.fails) ∧
        runProgram host fuel executable args input options w = run.map id Prod.fst) ∧
    ∀ (σ : Type) (completed : RunResult → σ → σ) (s : σ),
      let launched := Supervisor.new.runProgramWithInput host.logged executable args input options
        (noteResult completed) (s, []) (w, [])
      launched.1 = .ok start.pid ∧
        Supervisor.new.runProgramWithInput host executable args input options
          (noteResult completed) (s, []) w = launched.map id (.map id (.map id Prod.fst)) ∧
        ∀ moments : List (σ × ω),
          let life := (Life.launchWithInput host executable args input options
            (noteResult completed) s [] w).looks host moments
          Condemns start input life.calls ∧
            ∀ status ∈ reported life.calls,
              life.kept = [Run.answer start.pipe life.calls status] := by
  refine ⟨?_, ?_⟩
  · intro fuel
    generalize hrun : runProgram host.logged fuel executable args input options (w, []) = run
    have hunlogged := runProgram_logged host fuel executable args input options (w, [])
    rw [hrun] at hunlogged
    obtain ⟨result, w₂⟩ := run
    have hends := runProgram_spec host hspawn hrun
    obtain ⟨hcondemns, hunreported⟩ := condemns_runProgram hspawn hrun
    refine ⟨hcondemns, ?_, ?_, hunlogged⟩
    · intro status hstatus
      rcases result with _ | _ | given
      · rw [hunreported nofun] at hstatus
        cases hstatus
      · rw [hunreported nofun] at hstatus
        cases hstatus
      · obtain ⟨seen, hreported, rfl⟩ := hends
        rw [hreported, List.mem_singleton] at hstatus
        rw [hstatus]
    · rintro cause rfl
      exact hends
  · intro σ completed s launched
    have hlaunch : Supervisor.new.runProgramWithInput host.logged executable args input options
        (noteResult completed) (s, []) (w, []) =
          (.ok start.pid, Supervisor.new.register host.logged start
            (.collecting input (noteResult completed)) true (s, []) w₁ |>.2) := by
      rw [Supervisor.runProgramWithInput, Supervisor.launch, hspawn]
      rfl
    refine ⟨congrArg Prod.fst hlaunch, Supervisor.launch_logged host executable args options
      (.collecting input (noteResult completed)) true .new (s, []) (w, []), ?_⟩
    intro moments life
    have hbegin : (Life.launchWithInput host executable args input options (noteResult completed)
        s [] w).Tends start input := by
      rw [Life.launchWithInput, hlaunch]
      exact Or.inl ⟨_, rfl, Entry.tends_launched hspawn input (noteResult completed) (s, [])⟩
    exact ⟨(hbegin.looks host moments).condemns, fun status => Life.kept_of_reported hspawn rfl⟩

/-- A program takes one byte of its input and refuses the rest in the first round. -/
theorem killed_iff_undelivered_late :
    let run := runProgram Host.lone.logged 1 "/bin/cat" [] "ab" {}
      ({ answers := [.wrote 1, .wouldBlock, .brokenPipe], output := [97] }, [])
    sent run.2.2 = [(.group 1, .kill)] ∧ run.1 = some (.ok ⟨0, "a", ""⟩) := by
  let start : Child :=
    { pid := 1, stdin := some 0, stdout := some 1, stderr := some 2, leadsGroup := true }
  have hspawn : (spawn Host.lone.logged "/bin/cat" [] {}
      ({ answers := [.wrote 1, .wouldBlock, .brokenPipe], output := [97] }, [])).1 = .ok start := by
    cbv
  obtain ⟨hruns, -⟩ := killed_iff_undelivered Host.lone (Prod.ext hspawn rfl) "ab"
  obtain ⟨hcondemns, hgiven, -⟩ := hruns 1
  generalize hrun : runProgram Host.lone.logged 1 "/bin/cat" [] "ab" {} _ = run at hcondemns hgiven
  have hlog : (undelivered start "ab" run.2.2, reported run.2.2, received (some 1) run.2.2,
      received (some 2) run.2.2) = (true, [.exited 0], [97], []) := by
    rw [← hrun]
    cbv
  simp only [Prod.mk.injEq] at hlog
  obtain ⟨hundelivered, hreported, hout, herr⟩ := hlog
  refine ⟨?_, ?_⟩
  · rw [hcondemns.signals, if_pos hundelivered]
    rfl
  · have htext : Text.Utf8.lossy [97] = "a" ∧ Text.Utf8.lossy [] = "" := by constructor <;> cbv
    rw [hgiven (.exited 0) (by simp [hreported]), Run.answer]
    simp only [Child.pipe, start, hout, herr, htext]
    rfl

end Chaperone
