import Chaperone.Proofs.Run
import Chaperone.Proofs.Supervisor.Life

/-!
# Two ways to run a program to its end

`runProgram` waits for the end of a program itself.  A supervisor that is given the callbacks
`Callbacks.collecting` looks at the program now and then, and hands over the result at its end.  The
one collects bytes and decodes them when all have come; the other decodes each piece as it comes.

Both give the status that was reported and the text of all bytes that were read (`runProgram_spec`,
`Life.completed_spec`).  So they agree whenever the program does the same in both
(`runProgram_agrees`), however its output was cut into reads and however often it was looked at.
-/

namespace Chaperone

variable {σ ω : Type}

def noteResult (completed : RunResult → σ → σ) (result : RunResult) :
    σ × List RunResult → σ × List RunResult
  | (s, results) => (completed result s, results ++ [result])

def collectingOn (input : String) (completed : RunResult → σ → σ) (memory : Collected) :
    Callbacks (σ × List RunResult) :=
  { (Callbacks.collecting input (noteResult completed)).remember memory with onStarted := none }

def Listener.collector (input : String) (completed : RunResult → σ → σ) :
    Listener (σ × List RunResult) where
  Hears c s pieces := s.2 = [] ∧
    c = collectingOn input completed ⟨heard .stdout pieces, heard .stderr pieces⟩
  hears_output := by
    rintro _ s pieces ⟨hs, rfl⟩ stream
    cases stream
    all_goals
      refine ⟨_, rfl, ?_⟩
      rintro ω host occasion text child w result rfl
      refine ⟨hs, ?_⟩
      simp only [heard_append, heard, reduceCtorEq, if_true, if_false, String.append_empty]
      rfl

theorem Listener.isPrivate_collector (input : String) (completed : RunResult → σ → σ) :
    (Listener.collector input completed).IsPrivate :=
  fun _ _ _ _ _ h => h

/-- Feeding the input collects nothing. -/
theorem Entry.launched_collecting (host : Host ω) (child : Child) (input : String)
    (completed : RunResult → σ → σ) (kill : Bool) (s : σ) (w : ω)
    {m : Entry (σ × List RunResult) × (σ × List RunResult) × ω}
    (hm : Entry.launched host child (.collecting input (noteResult completed)) kill (s, []) w = m) :
    (Listener.collector input completed).Hears m.1.callbacks m.2.1 [] := by
  subst hm
  let started : Script (Collected × σ × List RunResult) :=
    (Script.feed input).bind fun () => .done ({}, s, [])
  have hlaunched :
      Entry.launched host child (.collecting input (noteResult completed)) kill (s, []) w =
        let r := started.run host child w
        ({ child := r.2.1
           callbacks := collectingOn input completed r.1.1
           killOnInputFailure := kill }, r.1.2, r.2.2) := rfl
  have hrun : (started.run host child w).1 = ({}, s, []) := by rw [Script.run_bind]; rfl
  rw [hlaunched]
  exact ⟨congrArg (·.2.2) hrun, congrArg (fun r => collectingOn input completed r.1) hrun⟩

/-- A life with collecting callbacks is running or has ended, after any looks. -/
theorem Life.stage_collecting (host : Host ω) {executable : String} {args : List String}
    {options : LaunchOptions} {child : Child} {w : ω} {w' : ω × Log}
    (hspawn : spawn host.logged executable args options (w, []) = (.ok child, w'))
    {input : String} {completed : RunResult → σ → σ} {s : σ} {moments : List (σ × ω)}
    {last : Life σ (List RunResult)}
    (hlast : (launchWithInput host executable args input options (noteResult completed) s []
      w).looks host moments = last) :
    last.Running (.collector input completed) child.pipe moments.length ∨
      last.Ended (.collector input completed) child.pipe host := by
  have hrunning : (launchWithInput host executable args input options (noteResult completed) s []
      w).Running (.collector input completed) child.pipe 0 :=
    running_launch _ hspawn fun _ hm =>
      Entry.launched_collecting host.logged child input completed true s w' hm
  have hstage := stage_looks host (Listener.isPrivate_collector input completed)
    (apart_of_spawn hspawn) (Or.inl hrunning) moments
  rwa [hlast, Nat.zero_add] at hstage

/-- At the end of such a life its result is handed over, once. -/
theorem Life.Ended.answer {host : Host ω} {input : String} {completed : RunResult → σ → σ}
    {out : OutputStream → Option Descriptor} {last : Life σ (List RunResult)}
    (h : last.Ended (.collector input completed) out host) :
    ∃ status, reported last.calls = [status] ∧
      last.kept = [Run.answer out last.calls status] := by
  obtain ⟨-, status, m, all, hreported, hkept, ⟨hnone, hc⟩, hheard⟩ := h
  refine ⟨status, hreported, ?_⟩
  rw [hkept, Run.answer, ← hheard, ← hheard]
  simp only [Entry.conclude, hc]
  exact congrArg (· ++ _) hnone

/-- **What a supervised program gives.**  Once its end is reported its result is handed over, once;
until then each look was answered that there is no end. -/
theorem Life.completed_spec (host : Host ω) {executable : String} {args : List String}
    {options : LaunchOptions} {child : Child} {w : ω} {w' : ω × Log}
    (hspawn : spawn host.logged executable args options (w, []) = (.ok child, w'))
    {input : String} {completed : RunResult → σ → σ} {s : σ} {moments : List (σ × ω)}
    {last : Life σ (List RunResult)}
    (hlast : (launchWithInput host executable args input options (noteResult completed) s []
      w).looks host moments = last) :
    (last.kept = [] ∧ silences last.calls = moments.length) ∨
      ∃ status, reported last.calls = [status] ∧
        last.kept = [Run.answer child.pipe last.calls status] := by
  rcases stage_collecting host hspawn hlast with hlife | hlife
  · obtain ⟨-, hsilences, entry, s', pieces, -, -, -, ⟨hkept, -⟩, -⟩ := hlife
    exact Or.inl ⟨hkept, hsilences⟩
  · exact Or.inr hlife.answer

/-- **Both ways agree.**  A program is run to its end on one machine and supervised on another,
with any cutting of its output into reads, any partial writes and any moments at which its end is
reported.  If in both it gives the same bytes and its end is reported with the same status, then the
run gives a result and the supervisor hands over the same one, once.  The run needs more rounds, and
the supervisor more looks, than there are answers that report no end.  The log of the run makes no
difference to it. -/
theorem runProgram_agrees {ω' : Type} (host : Host ω) (host' : Host ω') {executable : String}
    {args : List String} {options : LaunchOptions} {input : String} {child child' : Child}
    {w : ω} {w' : ω'} {w₁ w₂ : ω × Log} {w₁' : ω' × Log} {fuel : Nat}
    {result : Option (Except Error RunResult)}
    (hspawn : spawn host.logged executable args options (w, []) = (.ok child, w₁))
    (hrun : runProgram host.logged fuel executable args input options (w, []) = (result, w₂))
    (hspawn' : spawn host'.logged executable args options (w', []) = (.ok child', w₁'))
    {completed : RunResult → σ → σ} {s : σ} {moments : List (σ × ω')}
    {last : Life σ (List RunResult)}
    (hlast : (Life.launchWithInput host' executable args input options (noteResult completed) s []
      w').looks host' moments = last)
    {bytes : OutputStream → List UInt8} {status : ExitStatus}
    (hbytes : ∀ stream, received (child.pipe stream) w₂.2 = bytes stream)
    (hbytes' : ∀ stream, received (child'.pipe stream) last.calls = bytes stream)
    (hstatus : ∀ seen ∈ reported w₂.2, seen = status)
    (hstatus' : ∀ seen ∈ reported last.calls, seen = status)
    (hquiet : ∀ call ∈ w₂.2, call.fails = false)
    (hfuel : silences w₂.2 < fuel) (hmoments : silences last.calls < moments.length) :
    let answer : RunResult :=
      ⟨status.code, Text.Utf8.lossy (bytes .stdout), Text.Utf8.lossy (bytes .stderr)⟩
    result = some (.ok answer) ∧ last.kept = [answer] ∧
      runProgram host fuel executable args input options w = (result, w₂.1) := by
  have hends := runProgram_spec host hspawn hrun
  have hcompleted := Life.completed_spec host' hspawn' hlast
  have hunlogged := runProgram_logged host fuel executable args input options (w, [])
  rw [hrun] at hunlogged
  refine ⟨?_, ?_, hunlogged⟩
  · rcases result with _ | _ | given
    · exact absurd hends (Nat.ne_of_lt hfuel)
    · obtain ⟨call, hcall, hfails⟩ := hends
      rw [hquiet call hcall] at hfails
      cases hfails
    · obtain ⟨seen, hreported, rfl⟩ := hends
      obtain rfl : seen = status := hstatus seen (by simp [hreported])
      rw [Run.answer, hbytes, hbytes]
  · rcases hcompleted with ⟨-, hsilences⟩ | ⟨seen, hreported, hkept⟩
    · exact absurd hsilences (Nat.ne_of_lt hmoments)
    · obtain rfl : seen = status := hstatus' seen (by simp [hreported])
      rw [hkept, Run.answer, hbytes', hbytes']

/-- Both give the text of a program that has written one character of two bytes. -/
theorem runProgram_agrees_echo :
    (runProgram Host.ended.logged 1 "/bin/echo" [] "" {} ([0xC3, 0xA9], [])).1 =
        some (.ok ⟨0, "é", ""⟩) ∧
      ((Life.launchWithInput Host.ended "/bin/echo" [] "" {} (noteResult fun _ s => s) () []
        []).looks Host.ended [((), [0xC3, 0xA9])]).kept = [⟨0, "é", ""⟩] ∧
      (runProgram Host.ended 1 "/bin/echo" [] "" {} [0xC3, 0xA9]).1 = some (.ok ⟨0, "é", ""⟩) := by
  let bytes (stream : OutputStream) : List UInt8 := if stream = .stdout then [0xC3, 0xA9] else []
  let child : Child :=
    { pid := 1, stdin := none, stdout := some 1, stderr := some 2, leadsGroup := true }
  have hspawn : (spawn Host.ended.logged "/bin/echo" [] {} ([0xC3, 0xA9], [])).1 = .ok child := by
    cbv
  have hspawn' : (spawn Host.ended.logged "/bin/echo" [] {} ([], [])).1 = .ok child := by cbv
  have hrun :
      (let log := (runProgram Host.ended.logged 1 "/bin/echo" [] "" {} ([0xC3, 0xA9], [])).2.2
      (received (some 1) log, received (some 2) log, reported log, silences log,
        log.all fun call => !call.fails)) = ([0xC3, 0xA9], [], [.exited 0], 0, true) := by cbv
  have hlast :
      (let log := ((Life.launchWithInput Host.ended "/bin/echo" [] "" {} (noteResult fun _ s => s)
        () [] []).looks Host.ended [((), [0xC3, 0xA9])]).calls
      (received (some 1) log, received (some 2) log, reported log, silences log)) =
        ([0xC3, 0xA9], [], [.exited 0], 0) := by cbv
  generalize hr : runProgram Host.ended.logged 1 "/bin/echo" [] "" {} _ = run at hrun ⊢
  generalize hl : (Life.launchWithInput Host.ended "/bin/echo" [] "" {} _ _ _ _).looks _ _ = last
    at hlast ⊢
  obtain ⟨result, w⟩ := run
  simp only [Prod.mk.injEq, List.all_eq_true, Bool.not_eq_true'] at hrun hlast
  obtain ⟨hout, herr, hstatus, hsilences, hquiet⟩ := hrun
  obtain ⟨hout', herr', hstatus', hsilences'⟩ := hlast
  have hbytes (stream : OutputStream) : received (child.pipe stream) w.2 = bytes stream := by
    cases stream
    · exact hout
    · exact herr
  have hbytes' (stream : OutputStream) :
      received (child.pipe stream) last.calls = bytes stream := by
    cases stream
    · exact hout'
    · exact herr'
  have hexit : ∀ seen ∈ reported w.2, seen = .exited 0 := by simp [hstatus]
  have hexit' : ∀ seen ∈ reported last.calls, seen = .exited 0 := by simp [hstatus']
  have hanswer : (⟨(ExitStatus.exited 0).code, Text.Utf8.lossy (bytes .stdout),
      Text.Utf8.lossy (bytes .stderr)⟩ : RunResult) = ⟨0, "é", ""⟩ := by cbv
  rw [← hanswer]
  obtain ⟨hgiven, hkept, hunlogged⟩ := runProgram_agrees Host.ended Host.ended (Prod.ext hspawn rfl) hr (Prod.ext hspawn' rfl) hl
    hbytes hbytes' hexit hexit' hquiet (by rw [hsilences]; decide) (by rw [hsilences']; decide)
  exact ⟨hgiven, hkept, (congrArg Prod.fst hunlogged).trans hgiven⟩

end Chaperone
