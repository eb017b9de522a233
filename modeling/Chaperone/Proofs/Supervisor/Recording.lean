import Chaperone.Proofs.Supervisor.Listener

/-!
# Writing down when callbacks run

`callbacks.recorded n` are the callbacks of the child `n`, which besides what they do append to a
trace that they share what has run, and for which child.  A callback that is missing counts as one
that does nothing else.

`Listener.recorder n` reads from the trace what a child was handed since some moment, so a look at
the child appends to the trace what `Hands` says (`Entry.launched_recorded`, `Entry.poll_recorded`).
-/

namespace Chaperone

variable {σ ω : Type}

inductive Firing where
  | started
  | output (piece : Piece)
  | exited (status : ExitStatus)
  deriving DecidableEq, Repr, Inhabited

/-- Runs of callbacks, oldest first, each with the number of its child. -/
abbrev Trace := List (Nat × Firing)

def firings (n : Nat) (trace : Trace) : List Firing :=
  trace.filterMap fun (m, firing) => if m = n then some firing else none

@[simp] theorem firings_append (n : Nat) (trace more : Trace) :
    firings n (trace ++ more) = firings n trace ++ firings n more := by
  simp [firings]

@[simp] theorem firings_self (n : Nat) (fired : List Firing) :
    firings n (fired.map (n, ·)) = fired := by
  induction fired with
  | nil => rfl
  | cons firing fired ih =>
    simp only [firings, List.map_cons, List.filterMap_cons, if_true] at ih ⊢
    rw [ih]

theorem firings_of_ne {n m : Nat} (h : m ≠ n) (fired : List Firing) :
    firings n (fired.map (m, ·)) = [] := by
  rw [firings, List.filterMap_map]
  exact List.filterMap_eq_nil_iff.mpr fun _ _ => if_neg h

/-! ### Scripts in a row -/

theorem Script.run_bind {α β : Type} (host : Host ω) (script : Script α) (f : α → Script β)
    (child : Child) (w : ω) :
    (script.bind f).run host child w =
      let r := script.run host child w
      (f r.1).run host r.2.1 r.2.2 := by
  induction script generalizing child w with
  | done value => rfl
  | write text close next ih => exact ih ..
  | closeStdin next ih => exact ih ..
  | signal s next ih => exact ih ..

def Script.noted {μ : Type} (n : Nat) (firing : Firing) (trace : Trace)
    (script : Script (μ × σ)) : Script (μ × σ × Trace) :=
  script.bind fun (memory, s) => .done (memory, s, trace ++ [(n, firing)])

theorem Script.trace_noted {μ : Type} (host : Host ω) (n : Nat) (firing : Firing) (trace : Trace)
    (script : Script (μ × σ)) (child : Child) (w : ω) :
    ((script.noted n firing trace).run host child w).1.2.2 = trace ++ [(n, firing)] := by
  rw [Script.noted, Script.run_bind]
  rfl

/-! ### Recorded callbacks -/

namespace Callbacks

/-- The callbacks of the child `n`, which write down when they run. -/
def recorded (n : Nat) (callbacks : Callbacks σ) : Callbacks (σ × Trace) where
  Memory := callbacks.Memory
  memory := callbacks.memory
  onStarted := some fun occasion memory (s, trace) =>
    Script.noted n .started trace <|
      callbacks.onStarted.getD (fun _ memory s => .done (memory, s)) occasion memory s
  onStdout := some fun occasion text memory (s, trace) =>
    Script.noted n (.output (.stdout, text)) trace <|
      callbacks.onStdout.getD (fun _ _ memory s => .done (memory, s)) occasion text memory s
  onStderr := some fun occasion text memory (s, trace) =>
    Script.noted n (.output (.stderr, text)) trace <|
      callbacks.onStderr.getD (fun _ _ memory s => .done (memory, s)) occasion text memory s
  onExit := some fun occasion status memory (s, trace) =>
    (callbacks.onExit.getD (fun _ _ _ s => s) occasion status memory s,
      trace ++ [(n, .exited status)])

def recordedOn (n : Nat) (callbacks : Callbacks σ) : Callbacks (σ × Trace) :=
  { callbacks.recorded n with onStarted := Option.none }

/-- Recorded callbacks write down what they are handed. -/
theorem recordedOn_output (n : Nat) (callbacks : Callbacks σ) (stream : OutputStream) :
    ∃ callback, (callbacks.recordedOn n).onOutput stream = some callback ∧
      ∀ {ω : Type} (host : Host ω) occasion text memory s trace child w,
        ((callback occasion text memory (s, trace)).run host child w).1.2.2 =
          trace ++ [(n, .output (stream, text))] := by
  cases stream <;>
    exact ⟨_, rfl, fun host _ _ _ _ trace child w => Script.trace_noted host n _ trace _ child w⟩

theorem remember_recordedOn (n : Nat) (callbacks : Callbacks σ) (memory : callbacks.Memory) :
    (callbacks.recordedOn n).remember memory = (callbacks.remember memory).recordedOn n := rfl

end Callbacks

/-- The account that a trace gives of what a child was handed since `before`. -/
def Listener.recorder (n : Nat) (before : Trace) : Listener (σ × Trace) where
  Hears c s pieces := (∃ callbacks : Callbacks σ, c = callbacks.recordedOn n) ∧
    s.2 = before ++ (pieces.map Firing.output).map (n, ·)
  hears_output := by
    rintro _ ⟨s, trace⟩ pieces ⟨⟨callbacks, rfl⟩, htrace⟩ stream
    obtain ⟨callback, hc, hrun⟩ := callbacks.recordedOn_output n stream
    refine ⟨callback, hc, ?_⟩
    rintro ω host occasion text child w result rfl
    refine ⟨⟨_, callbacks.remember_recordedOn n _⟩, ?_⟩
    rw [hrun]
    simp only at htrace
    simp [htrace]

namespace Entry

/-- At the launch of a child its first callback runs, and nothing else. -/
theorem launched_recorded (host : Host ω) (child : Child) (n : Nat) (callbacks : Callbacks σ)
    (kill : Bool) (s : σ) (trace : Trace) (w : ω × Log)
    {m : Entry (σ × Trace) × (σ × Trace) × ω × Log}
    (hm : Entry.launched host.logged child (callbacks.recorded n) kill (s, trace) w = m) :
    (∃ c : Callbacks σ, m.1.callbacks = c.recordedOn n) ∧
      m.2.1.2 = trace ++ [(n, .started)] := by
  subst hm
  let started : Script (callbacks.Memory × σ × Trace) :=
    Script.noted n .started trace <|
      callbacks.onStarted.getD (fun _ memory s => .done (memory, s))
        ⟨child.pid, host.logged.wallClock w⟩ callbacks.memory s
  have hlaunched : Entry.launched host.logged child (callbacks.recorded n) kill (s, trace) w =
      let r := started.run host.logged child w
      ({ child := r.2.1
         callbacks := (callbacks.remember r.1.1).recordedOn n
         killOnInputFailure := kill }, r.1.2, r.2.2) := rfl
  rw [hlaunched]
  exact ⟨⟨_, rfl⟩, Script.trace_noted ..⟩

/-- A look asks once.  It appends to the trace what it handed over, then the exit if the answer
reports it. -/
theorem poll_recorded (host : Host ω) {n : Nat} {entry : Entry (σ × Trace)} (s : σ × Trace)
    (w : ω × Log) (hcallbacks : ∃ c : Callbacks σ, entry.callbacks = c.recordedOn n)
    (hstatus : entry.child.status = none) (hfinished : entry.finished = false)
    {m : Entry (σ × Trace) × (σ × Trace) × ω × Log} (hm : entry.poll host.logged s w = m) :
    ∃ (answer : ReapResult) (pieces : List Piece), (∀ p ∈ pieces, p.2 ≠ "") ∧
      asked m.2.2.2 = asked w.2 ++ [(entry.child.pid, answer)] ∧
      m.1.child.status = answer.status? ∧ m.1.finished = answer.status?.isSome ∧
      (answer.status? = none → ∃ c : Callbacks σ, m.1.callbacks = c.recordedOn n) ∧
      m.2.1.2 = s.2 ++
        (pieces.map Firing.output ++ (answer.status?.map Firing.exited).toList).map (n, ·) := by
  subst hm
  have hbefore : (Listener.recorder n s.2).Hears entry.callbacks s [] :=
    ⟨hcallbacks, (List.append_nil _).symm⟩
  obtain ⟨answer, hasked, hseen, hend⟩ :=
    entry.poll_spec host (Listener.recorder n s.2) s w hstatus
  cases hr : answer.status? with
  | none =>
    rw [hr] at hend
    obtain ⟨hfin, hadds⟩ := hend
    obtain ⟨pieces, hpieces, hc, htrace⟩ := hadds [] hbefore
    refine ⟨answer, pieces, hpieces, hasked, hseen, ?_, fun _ => hc, ?_⟩
    · rw [hfin, hfinished, hr]
      rfl
    · simpa [hr] using htrace
  | some status =>
    rw [hr] at hend
    obtain ⟨m, hadds, hpoll⟩ := hend
    obtain ⟨pieces, hpieces, ⟨c, hc⟩, htrace⟩ := hadds [] hbefore
    refine ⟨answer, pieces, hpieces, hasked, hseen, ?_, ?_, ?_⟩
    · rw [hpoll, hr]
      rfl
    · intro h
      rw [hr] at h
      cases h
    · have hlast : (entry.poll host.logged s w).2.1.2 = m.2.1.2 ++ [(n, .exited status)] := by
        rw [hpoll]
        simp only [conclude, hc]
        rfl
      rw [hlast, htrace, hr]
      simp

end Entry

end Chaperone
