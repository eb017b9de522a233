import Chaperone.Proofs.Child.Start
import Chaperone.Proofs.Supervisor.Recording
import Chaperone.Supervisor.Basic
import Mathlib.Data.List.Forall2

/-!
# The order in which callbacks run

A session is all that a caller does with one supervisor: it launches programs, looks at them, waits
for them and signals them in any order, and meanwhile does what it likes with its own state and the
machine.  Children are numbered in the order of their launch, their callbacks are recorded, and the
machine is logged.

* `Session.InOrder`: the callbacks of each child have run in the order start, output, exit.
* `Session.Follows`: what one action adds.  In particular a look asks once about each child whose
  exit has not been handed over, and hands it over in the same look when the answer reports it.
* `Session.callbacks_in_order`: every session is in order, and so is everything it may do next.
-/

namespace Chaperone

variable {σ ω : Type}

/-- A supervisor with the state that its callbacks share and the machine it runs on. -/
structure Session (σ ω : Type) : Type 1 where
  supervisor : Supervisor (σ × Trace) := {}
  shared : σ × Trace
  machine : ω × Log
  /-- How many children have been launched. -/
  launches : Nat := 0

inductive Action (σ ω : Type) : Type 1 where
  | launch (executable : String) (args : List String) (options : LaunchOptions)
      (callbacks : Callbacks σ) (killOnInputFailure : Bool)
  | poll
  /-- Wait, for so many rounds at most. -/
  | wait (rounds interval : Nat) (maxWait : Option Nat)
  | signalAll (signal : Signal)
  | sleep (microseconds : Nat)
  /-- Read the clock. -/
  | clock
  /-- Anything that does not concern the supervisor. -/
  | elsewhere (change : σ → ω → σ × ω)

namespace Session

def start (s : σ) (w : ω) : Session σ ω where
  shared := (s, [])
  machine := (w, [])

/-- Launches a program, whose callbacks are recorded under the next number. -/
def launch (host : Host ω) (executable : String) (args : List String) (options : LaunchOptions)
    (callbacks : Callbacks σ) (killOnInputFailure : Bool) (session : Session σ ω) :
    Except Error Pid × Session σ ω :=
  let (result, supervisor, shared, machine) :=
    session.supervisor.launch host.logged executable args options
      (callbacks.recorded session.launches) killOnInputFailure session.shared session.machine
  (result, {
    supervisor, shared, machine
    launches := match result with
      | .ok _ => session.launches + 1
      | .error _ => session.launches })

def poll (host : Host ω) (session : Session σ ω) : Session σ ω :=
  let (_, supervisor, shared, machine) :=
    session.supervisor.poll host.logged session.shared session.machine
  { session with supervisor, shared, machine }

def act (host : Host ω) (session : Session σ ω) : Action σ ω → Session σ ω
  | .launch executable args options callbacks kill =>
    (session.launch host executable args options callbacks kill).2
  | .poll => session.poll host
  | .wait rounds interval maxWait =>
    let (_, supervisor, shared, machine) :=
      session.supervisor.wait host.logged rounds interval maxWait session.shared session.machine
    { session with supervisor, shared, machine }
  | .signalAll signal =>
    { session with machine := session.supervisor.signalAll host.logged signal session.machine }
  | .sleep microseconds =>
    { session with machine := host.logged.sleep microseconds session.machine }
  | .clock => { session with machine := (host.logged.now session.machine).2 }
  | .elsewhere change =>
    let (s, w) := change session.shared.1 session.machine.1
    { session with shared := (s, session.shared.2), machine := (w, session.machine.2) }

def run (host : Host ω) (session : Session σ ω) (actions : List (Action σ ω)) : Session σ ω :=
  actions.foldl (act host) session

def firings (session : Session σ ω) (n : Nat) : List Firing := Chaperone.firings n session.shared.2

def hasExit (fired : List Firing) : Bool :=
  fired.any fun
    | .exited _ => true
    | _ => false

/-- The children whose exit has not been handed over. -/
def running (session : Session σ ω) : List Nat :=
  (List.range session.launches).filter fun n => !hasExit (session.firings n)

/-! ### What holds of a session -/

/-- What has run for a child: first the start, then output, none of it empty, then perhaps the
exit. -/
def Story (fired : List Firing) : Prop :=
  ∃ (pieces : List Piece) (exit : Option ExitStatus), (∀ p ∈ pieces, p.2 ≠ "") ∧
    fired = .started :: pieces.map .output ++ (exit.map .exited).toList

structure InOrder (session : Session σ ω) : Prop where
  story : ∀ n < session.launches, Story (session.firings n)
  unborn : ∀ n, session.launches ≤ n → session.firings n = []

/-- What one look at every child does.  It asks once about each running child.  What it hands over
for a child is output, none of it empty, and then the exit if the answer reports it, with the
status that the child keeps. -/
structure Looks (host : Host ω) (before after : Session σ ω) : Prop where
  launches : after.launches = before.launches
  answers : ∃ answers : List ReapResult, answers.length = before.running.length ∧
    asked after.machine.2 = asked before.machine.2 ++ before.supervisor.pids.zip answers ∧
    ((Supervisor.pollAll host.logged before.supervisor.entries before.shared before.machine).1.map
        (·.child.status) = answers.map ReapResult.status?) ∧
    ∀ n answer, (n, answer) ∈ before.running.zip answers → ∃ pieces : List Piece,
      (∀ p ∈ pieces, p.2 ≠ "") ∧
        after.firings n =
          before.firings n ++ pieces.map .output ++ (answer.status?.map .exited).toList
  others : ∀ n ∉ before.running, after.firings n = before.firings n

def IsWaitStep (action : Action σ ω) : Prop :=
  action = .poll ∨ action = .clock ∨ ∃ microseconds, action = .sleep microseconds

def Follows (host : Host ω) (before : Session σ ω) : Action σ ω → Prop
  | .launch executable args options callbacks kill =>
    let (result, after) := before.launch host executable args options callbacks kill
    match result with
    | .ok _ =>
      after.launches = before.launches + 1 ∧
        after.shared.2 = before.shared.2 ++ [(before.launches, .started)]
    | .error _ => after.launches = before.launches ∧ after.shared.2 = before.shared.2
  | .poll => Looks host before (before.poll host)
  -- A wait is made of looks, with pauses and readings of the clock between them.
  | .wait rounds interval maxWait =>
    ∃ steps : List (Action σ ω), (∀ step ∈ steps, IsWaitStep step) ∧
      before.act host (.wait rounds interval maxWait) = before.run host steps
  | action =>
    (before.act host action).launches = before.launches ∧
      (before.act host action).shared.2 = before.shared.2

/-! ### One look at every child -/

structure Attends (n : Nat) (entry : Entry (σ × Trace)) : Prop where
  callbacks : ∃ c : Callbacks σ, entry.callbacks = c.recordedOn n
  status : entry.child.status = none
  finished : entry.finished = false

def silent (ns : List Nat) (answers : List ReapResult) : List Nat :=
  ((ns.zip answers).filter fun p => p.2.status?.isNone).map Prod.fst

def Handed (n : Nat) (answer : ReapResult) (trace trace' : Trace) : Prop :=
  ∃ pieces : List Piece, (∀ p ∈ pieces, p.2 ≠ "") ∧
    Chaperone.firings n trace' = Chaperone.firings n trace ++ pieces.map .output ++
      (answer.status?.map .exited).toList

/-- What a look hands over for one child does not depend on what runs for the others. -/
theorem Handed.congr {n : Nat} {answer : ReapResult} {t t' u u' : Trace}
    (h : Handed n answer t t') (ht : Chaperone.firings n u = Chaperone.firings n t)
    (ht' : Chaperone.firings n u' = Chaperone.firings n t') : Handed n answer u u' := by
  obtain ⟨pieces, hpieces, hfired⟩ := h
  exact ⟨pieces, hpieces, by rw [ht, ht', hfired]⟩

theorem pollAll_spec (host : Host ω) {ns : List Nat} {entries : List (Entry (σ × Trace))}
    (hattends : List.Forall₂ Attends ns entries) (hns : ns.Nodup) (s : σ × Trace) (w : ω × Log)
    {r : List (Entry (σ × Trace)) × (σ × Trace) × ω × Log}
    (hr : Supervisor.pollAll host.logged entries s w = r) :
    ∃ answers : List ReapResult, answers.length = ns.length ∧
      asked r.2.2.2 = asked w.2 ++ (entries.map (·.child.pid)).zip answers ∧
      r.1.map (·.child.status) = answers.map ReapResult.status? ∧
      (∀ n answer, (n, answer) ∈ ns.zip answers → Handed n answer s.2 r.2.1.2) ∧
      (∀ n ∉ ns, Chaperone.firings n r.2.1.2 = Chaperone.firings n s.2) ∧
      List.Forall₂ Attends (silent ns answers) (r.1.filter fun entry => !entry.finished) := by
  induction hattends generalizing s w r with
  | nil =>
    subst hr
    exact ⟨[], rfl, by simp [Supervisor.pollAll], rfl, by simp, fun _ _ => rfl, .nil⟩
  | @cons n entry ns entries hentry hrest ih =>
    obtain ⟨hn, hns⟩ := List.nodup_cons.mp hns
    rw [Supervisor.pollAll] at hr
    generalize hm : entry.poll host.logged s w = m at hr
    obtain ⟨answer, pieces, hpieces, hasked, hstatus, hfinished, hcallbacks, htrace⟩ :=
      entry.poll_recorded host s w hentry.callbacks hentry.status hentry.finished hm
    obtain ⟨answers, hlength, hasked', hstatus', hhanded, hothers, hsilent⟩ :=
      ih hns m.2.1 m.2.2 rfl
    generalize hr' : Supervisor.pollAll host.logged entries m.2.1 m.2.2 = r' at *
    obtain rfl : r = (m.1 :: r'.1, r'.2) := by
      subst hr hr'
      rfl
    have hself : Handed n answer s.2 m.2.1.2 :=
      ⟨pieces, hpieces, by rw [htrace, firings_append, firings_self, List.append_assoc]⟩
    have hother (k : Nat) (hk : n ≠ k) :
        Chaperone.firings k m.2.1.2 = Chaperone.firings k s.2 := by
      rw [htrace, firings_append, firings_of_ne hk, List.append_nil]
    refine ⟨answer :: answers, congrArg Nat.succ hlength, ?_, ?_, ?_, ?_, ?_⟩
    · rw [hasked', hasked]
      simp
    · rw [List.map_cons, List.map_cons, hstatus, hstatus']
    · intro k a hk
      rcases List.mem_cons.mp hk with hk | hk
      · obtain ⟨rfl, rfl⟩ := Prod.mk.inj hk
        exact hself.congr rfl (hothers k hn)
      · have hne : n ≠ k := by
          rintro rfl
          exact hn (List.of_mem_zip hk).1
        exact (hhanded k a hk).congr (hother k hne).symm rfl
    · intro k hk
      obtain ⟨hne, hk⟩ := not_or.mp (List.mem_cons.not.mp hk)
      rw [hothers k hk, hother k (Ne.symm hne)]
    · cases ha : answer.status? with
      | none =>
        rw [ha] at hfinished hstatus
        simp only [silent, List.zip_cons_cons, List.filter_cons, ha, hfinished]
        exact .cons ⟨hcallbacks ha, hstatus, hfinished⟩ hsilent
      | some status =>
        rw [ha] at hfinished
        simp only [silent, List.zip_cons_cons, List.filter_cons, ha, hfinished]
        exact hsilent

/-! ### What each action does -/

theorem hasExit_append (fired more : List Firing) :
    hasExit (fired ++ more) = (hasExit fired || hasExit more) := List.any_append

theorem hasExit_output (pieces : List Piece) : hasExit (pieces.map .output) = false := by
  simp [hasExit]

theorem hasExit_exited (exit : Option ExitStatus) :
    hasExit (exit.map .exited).toList = exit.isSome := by
  cases exit <;> rfl

/-- The exit has been handed over after a look when the answer reports it. -/
theorem Handed.hasExit {n : Nat} {answer : ReapResult} {trace trace' : Trace}
    (h : Handed n answer trace trace')
    (hbefore : hasExit (Chaperone.firings n trace) = false) :
    Session.hasExit (Chaperone.firings n trace') = answer.status?.isSome := by
  obtain ⟨pieces, -, hfired⟩ := h
  rw [hfired, hasExit_append, hasExit_append, hasExit_output, hasExit_exited, hbefore]
  rfl

/-- A story without an exit goes on. -/
theorem Handed.story {n : Nat} {answer : ReapResult} {trace trace' : Trace}
    (h : Handed n answer trace trace') (hbefore : Story (Chaperone.firings n trace))
    (hrunning : Session.hasExit (Chaperone.firings n trace) = false) :
    Story (Chaperone.firings n trace') := by
  obtain ⟨more, hmore, hfired⟩ := h
  obtain ⟨pieces, exit, hpieces, hstory⟩ := hbefore
  obtain rfl : exit = none := by
    rw [hstory, hasExit_append, hasExit_exited] at hrunning
    exact Option.not_isSome_iff_eq_none.mp (by simp_all)
  refine ⟨pieces ++ more, answer.status?, ?_, ?_⟩
  · intro p hp
    rcases List.mem_append.mp hp with hp | hp
    · exact hpieces p hp
    · exact hmore p hp
  · rw [hfired, hstory]
    simp

theorem mem_running {session : Session σ ω} {n : Nat} :
    n ∈ session.running ↔ n < session.launches ∧ hasExit (session.firings n) = false := by
  simp [running]

structure Valid (session : Session σ ω) : Prop where
  inOrder : session.InOrder
  attends : List.Forall₂ Attends session.running session.supervisor.entries

theorem valid_start (s : σ) (w : ω) : (start s w).Valid where
  inOrder := ⟨fun _ h => absurd h (Nat.not_lt_zero _), fun _ _ => rfl⟩
  attends := .nil

theorem firings_of_eq {session session' : Session σ ω}
    (htrace : session'.shared.2 = session.shared.2) : session'.firings = session.firings := by
  funext n
  rw [firings, htrace, firings]

theorem running_of_eq {session session' : Session σ ω}
    (htrace : session'.shared.2 = session.shared.2)
    (hlaunches : session'.launches = session.launches) : session'.running = session.running := by
  rw [running, firings_of_eq htrace, hlaunches, running]

/-- An action that launches nothing and runs no callback. -/
theorem Valid.of_eq {session session' : Session σ ω} (h : session.Valid)
    (hentries : session'.supervisor = session.supervisor)
    (htrace : session'.shared.2 = session.shared.2)
    (hlaunches : session'.launches = session.launches) : session'.Valid := by
  have hfirings := firings_of_eq htrace
  refine ⟨⟨?_, ?_⟩, ?_⟩
  · intro n hn
    rw [hfirings]
    exact h.inOrder.story n (hlaunches ▸ hn)
  · intro n hn
    rw [hfirings]
    exact h.inOrder.unborn n (hlaunches ▸ hn)
  · rw [running_of_eq htrace hlaunches, hentries]
    exact h.attends

/-- The children that are left after a look are those of which no answer reports the end. -/
theorem silent_eq_filter {ns : List Nat} {answers : List ReapResult}
    (hlength : answers.length = ns.length) {p : Nat → Bool}
    (hp : ∀ n answer, (n, answer) ∈ ns.zip answers → p n = answer.status?.isNone) :
    silent ns answers = ns.filter p := by
  have hfst : (ns.zip answers).map Prod.fst = ns := List.map_fst_zip (Nat.le_of_eq hlength.symm)
  rw [silent, ← List.filter_congr fun q hq => hp q.1 q.2 hq]
  conv => rhs; rw [← hfst, List.filter_map]
  rfl

theorem exists_answer {ns : List Nat} {answers : List ReapResult}
    (hlength : answers.length = ns.length) {n : Nat} (hn : n ∈ ns) :
    ∃ answer, (n, answer) ∈ ns.zip answers := by
  have hfst : (ns.zip answers).map Prod.fst = ns := List.map_fst_zip (Nat.le_of_eq hlength.symm)
  rw [← hfst] at hn
  obtain ⟨⟨m, answer⟩, hmem, rfl⟩ := List.mem_map.mp hn
  exact ⟨answer, hmem⟩

theorem exists_of_forall₂ {α β : Type*} {R : α → β → Prop} {as : List α} {bs : List β}
    (h : List.Forall₂ R as bs) {a : α} (ha : a ∈ as) : ∃ b, R a b := by
  induction h with
  | nil => cases ha
  | cons hab _ ih =>
    rcases List.mem_cons.mp ha with rfl | ha
    · exact ⟨_, hab⟩
    · exact ih ha

/-- After a look those children are running that were, unless it handed over their exit. -/
theorem Looks.running {host : Host ω} {before after : Session σ ω} (h : Looks host before after) :
    after.running = before.running.filter fun n => !hasExit (after.firings n) := by
  rw [Session.running, Session.running, h.launches, List.filter_filter]
  refine List.filter_congr ?_
  intro n hn
  cases hexit : hasExit (before.firings n) with
  | false => exact (Bool.and_true _).symm
  | true =>
    have hmem : n ∉ before.running := by simp [mem_running, hexit]
    rw [h.others n hmem, hexit]
    rfl

theorem poll_spec {session : Session σ ω} (h : session.Valid) (host : Host ω) :
    Looks host session (session.poll host) ∧ (session.poll host).Valid := by
  have hnodup : session.running.Nodup := List.nodup_range.filter _
  obtain ⟨answers, hlength, hasked, hstatus, hhanded, hothers, hsilent⟩ :=
    pollAll_spec host h.attends hnodup session.shared session.machine rfl
  have hlooks : Looks host session (session.poll host) :=
    ⟨rfl, ⟨answers, hlength, hasked, hstatus, hhanded⟩, hothers⟩
  have hrunning : (session.poll host).running = silent session.running answers := by
    rw [hlooks.running, silent_eq_filter hlength]
    intro n answer hn
    have hbefore := (mem_running.mp (List.of_mem_zip hn).1).2
    simp only [firings, poll, Supervisor.poll, (hhanded n answer hn).hasExit hbefore]
    exact Option.not_isSome _
  refine ⟨hlooks, ⟨?_, ?_⟩, ?_⟩
  · intro n hn
    by_cases hmem : n ∈ session.running
    · obtain ⟨answer, ha⟩ := exists_answer hlength hmem
      exact (hhanded n answer ha).story (h.inOrder.story n hn) (mem_running.mp hmem).2
    · rw [hlooks.others n hmem]
      exact h.inOrder.story n hn
  · intro n hn
    have hmem : n ∉ session.running := fun hmem =>
      absurd (mem_running.mp hmem).1 (Nat.not_lt.mpr hn)
    rw [hlooks.others n hmem]
    exact h.inOrder.unborn n hn
  · rw [hrunning]
    exact hsilent

section
variable {session session' : Session σ ω}

/-- What runs for a new child runs for no other. -/
theorem firings_register_of_ne
    (htrace : session'.shared.2 = session.shared.2 ++ [(session.launches, .started)]) {n : Nat}
    (hn : n ≠ session.launches) : session'.firings n = session.firings n := by
  rw [firings, htrace, firings_append, firings]
  exact (congrArg _ (firings_of_ne (Ne.symm hn) [.started])).trans (List.append_nil _)

theorem firings_register (h : session.InOrder)
    (htrace : session'.shared.2 = session.shared.2 ++ [(session.launches, .started)]) :
    session'.firings session.launches = [.started] := by
  rw [firings, htrace, firings_append]
  exact congrArg₂ _ (h.unborn _ (Nat.le_refl _)) (firings_self _ [.started])

theorem running_register (h : session.InOrder)
    (htrace : session'.shared.2 = session.shared.2 ++ [(session.launches, .started)])
    (hlaunches : session'.launches = session.launches + 1) :
    session'.running = session.running ++ [session.launches] := by
  rw [running, hlaunches, List.range_succ, List.filter_append, running]
  refine congrArg₂ _ (List.filter_congr ?_) ?_
  · intro n hn
    rw [firings_register_of_ne htrace (Nat.ne_of_lt (List.mem_range.mp hn))]
  · rw [List.filter_singleton, firings_register h htrace]
    rfl

/-- A child that was launched gets the next number. -/
theorem Valid.register (h : session.Valid) {entry : Entry (σ × Trace)}
    (hentry : Attends session.launches entry)
    (hentries : session'.supervisor.entries = session.supervisor.entries ++ [entry])
    (htrace : session'.shared.2 = session.shared.2 ++ [(session.launches, .started)])
    (hlaunches : session'.launches = session.launches + 1) : session'.Valid := by
  refine ⟨⟨?_, ?_⟩, ?_⟩
  · intro n hn
    by_cases hne : n = session.launches
    · subst hne
      rw [firings_register h.inOrder htrace]
      exact ⟨[], none, by simp, rfl⟩
    · rw [firings_register_of_ne htrace hne]
      exact h.inOrder.story n (by omega)
  · intro n hn
    rw [firings_register_of_ne htrace (by omega)]
    exact h.inOrder.unborn n (by omega)
  · rw [running_register h.inOrder htrace hlaunches, hentries]
    exact List.rel_append h.attends (.cons hentry .nil)

end

theorem launch_spec {session : Session σ ω} (h : session.Valid) (host : Host ω)
    (executable : String) (args : List String) (options : LaunchOptions)
    (callbacks : Callbacks σ) (kill : Bool) :
    session.Follows host (.launch executable args options callbacks kill) ∧
      (session.act host (.launch executable args options callbacks kill)).Valid := by
  simp only [Follows, act, launch, Supervisor.launch]
  generalize hspawn : spawn host.logged executable args options session.machine = spawned
  obtain ⟨result, w⟩ := spawned
  cases result with
  | error cause => exact ⟨⟨rfl, rfl⟩, h.of_eq rfl rfl rfl⟩
  | ok child =>
    simp only [Supervisor.register]
    generalize hm : Entry.launched host.logged child (callbacks.recorded session.launches) kill
      session.shared w = m
    obtain ⟨hchild, -, hfinished, -⟩ := Entry.launched_spec host child _ kill session.shared w hm
    obtain ⟨hcallbacks, htrace⟩ := Entry.launched_recorded host child session.launches callbacks
      kill session.shared.1 session.shared.2 w hm
    have hstatus : m.1.child.status = none :=
      (Child.status_of_withoutInput hchild).trans (status_of_spawn hspawn)
    exact ⟨⟨trivial, htrace⟩, h.register ⟨hcallbacks, hstatus, hfinished⟩ rfl htrace rfl⟩

/-! ### Waiting -/

theorem snd_wait {τ : Type} (host : Host ω) (fuel interval : Nat)
    (maxWait : Option Nat) (supervisor : Supervisor τ) (s : τ) (w : ω) :
    (supervisor.wait host fuel interval maxWait s w).2 =
      Sum.elim id Prod.snd (iterate
        (Supervisor.waitRound host interval (Supervisor.waitDeadline host maxWait w).1) fuel
        (supervisor, s, (Supervisor.waitDeadline host maxWait w).2)) := by
  simp only [Supervisor.wait]
  split <;> next h => rw [h]; rfl

def withState (session : Session σ ω) (state : Supervisor (σ × Trace) × (σ × Trace) × ω × Log) :
    Session σ ω :=
  { session with supervisor := state.1, shared := state.2.1, machine := state.2.2 }

/-- One round of a wait is a look, after which the caller may pause and read the clock. -/
theorem waitRound_steps (host : Host ω) (interval : Nat) (deadline : Option Nat)
    (session : Session σ ω) :
    ∃ steps : List (Action σ ω), (∀ step ∈ steps, IsWaitStep step) ∧
      session.withState (Sum.elim id Prod.snd (Supervisor.waitRound host.logged interval deadline
        (session.supervisor, session.shared, session.machine))) = session.run host steps := by
  have hpoll : IsWaitStep (.poll : Action σ ω) := Or.inl rfl
  have hclock : IsWaitStep (.clock : Action σ ω) := Or.inr (Or.inl rfl)
  have hsleep : IsWaitStep (.sleep interval : Action σ ω) := Or.inr (Or.inr ⟨interval, rfl⟩)
  have hafter : session.poll host =
      session.withState (session.supervisor.poll host.logged session.shared session.machine).2 :=
    rfl
  simp only [Supervisor.waitRound]
  generalize session.supervisor.poll host.logged session.shared session.machine = r at hafter ⊢
  obtain ⟨left, supervisor, shared, machine⟩ := r
  cases left with
  | false => exact ⟨[.poll], by simpa using hpoll, hafter.symm⟩
  | true =>
    cases deadline with
    | none =>
      refine ⟨[.poll, .sleep interval], by simpa using ⟨hpoll, hsleep⟩, ?_⟩
      simp only [run, List.foldl_cons, List.foldl_nil, act, hafter]
      rfl
    | some deadline =>
      refine ⟨[.poll, .sleep interval, .clock], by simpa using ⟨hpoll, hsleep, hclock⟩, ?_⟩
      simp only [run, List.foldl_cons, List.foldl_nil, act, hafter]
      split <;> rfl

theorem iterate_waitRound_steps (host : Host ω) (interval : Nat) (deadline : Option Nat)
    (rounds : Nat) (session : Session σ ω) :
    ∃ steps : List (Action σ ω), (∀ step ∈ steps, IsWaitStep step) ∧
      session.withState (Sum.elim id Prod.snd
        (iterate (Supervisor.waitRound host.logged interval deadline) rounds
          (session.supervisor, session.shared, session.machine))) = session.run host steps := by
  induction rounds generalizing session with
  | zero => exact ⟨[], by simp, rfl⟩
  | succ rounds ih =>
    obtain ⟨steps, hsteps, hround⟩ := waitRound_steps host interval deadline session
    simp only [iterate]
    generalize Supervisor.waitRound host.logged interval deadline _ = result at hround ⊢
    cases result with
    | inr answer => exact ⟨steps, hsteps, hround⟩
    | inl state =>
      obtain ⟨more, hmore, hrest⟩ := ih (session.withState state)
      refine ⟨steps ++ more, ?_, ?_⟩
      · intro step hstep
        rcases List.mem_append.mp hstep with hstep | hstep
        · exact hsteps step hstep
        · exact hmore step hstep
      · rw [run, List.foldl_append]
        change _ = (session.run host steps).run host more
        rw [← hround]
        exact hrest

/-- **A wait is made of looks, pauses and readings of the clock.** -/
theorem wait_steps (host : Host ω) (rounds interval : Nat) (maxWait : Option Nat)
    (session : Session σ ω) :
    ∃ steps : List (Action σ ω), (∀ step ∈ steps, IsWaitStep step) ∧
      session.act host (.wait rounds interval maxWait) = session.run host steps := by
  have hwait : session.act host (.wait rounds interval maxWait) =
      session.withState (session.supervisor.wait host.logged rounds interval maxWait session.shared
        session.machine).2 := rfl
  rw [hwait, snd_wait]
  cases maxWait with
  | none => exact iterate_waitRound_steps host interval none rounds session
  | some maxWait =>
    obtain ⟨steps, hsteps, hrun⟩ := iterate_waitRound_steps host interval
      (deadline? (host.logged.now session.machine).1 maxWait) rounds (session.act host .clock)
    refine ⟨.clock :: steps, ?_, hrun⟩
    intro step hstep
    rcases List.mem_cons.mp hstep with rfl | hstep
    · exact Or.inr (Or.inl rfl)
    · exact hsteps step hstep

/-! ### Every session -/

theorem valid_waitStep {session : Session σ ω} (h : session.Valid) (host : Host ω)
    {step : Action σ ω} (hstep : IsWaitStep step) : (session.act host step).Valid := by
  rcases hstep with rfl | rfl | ⟨microseconds, rfl⟩
  · exact (poll_spec h host).2
  · exact h.of_eq rfl rfl rfl
  · exact h.of_eq rfl rfl rfl

theorem valid_waitSteps {session : Session σ ω} (h : session.Valid) (host : Host ω)
    {steps : List (Action σ ω)} (hsteps : ∀ step ∈ steps, IsWaitStep step) :
    (session.run host steps).Valid := by
  induction steps generalizing session with
  | nil => exact h
  | cons step steps ih =>
    obtain ⟨hstep, hsteps⟩ := List.forall_mem_cons.mp hsteps
    exact ih (valid_waitStep h host hstep) hsteps

theorem act_spec {session : Session σ ω} (h : session.Valid) (host : Host ω)
    (action : Action σ ω) : session.Follows host action ∧ (session.act host action).Valid := by
  cases action with
  | launch executable args options callbacks kill => exact launch_spec h host ..
  | poll => exact poll_spec h host
  | wait rounds interval maxWait =>
    obtain ⟨steps, hsteps, hwait⟩ := wait_steps host rounds interval maxWait session
    refine ⟨⟨steps, hsteps, hwait⟩, ?_⟩
    rw [hwait]
    exact valid_waitSteps h host hsteps
  | signalAll | sleep | clock | elsewhere => exact ⟨⟨rfl, rfl⟩, h.of_eq rfl rfl rfl⟩

theorem valid_run {session : Session σ ω} (h : session.Valid) (host : Host ω)
    (actions : List (Action σ ω)) : (session.run host actions).Valid := by
  induction actions generalizing session with
  | nil => exact h
  | cons action actions ih => exact ih (act_spec h host action).2

/-- **Whatever a caller does, the callbacks of each child run in order**: once the start, then
output, then once the exit, in the look in which the answer reports it, and nothing afterwards.
The start runs before the launch returns. -/
theorem callbacks_in_order (host : Host ω) (s : σ) (w : ω) (actions : List (Action σ ω)) :
    ((start s w).run host actions).InOrder ∧
      ∀ action, ((start s w).run host actions).Follows host action := by
  have hvalid := valid_run (valid_start s w) host actions
  exact ⟨hvalid.inOrder, fun action => (act_spec hvalid host action).1⟩

end Session

end Chaperone
