import Chaperone.Proofs.Supervisor.Hom
import Chaperone.Proofs.Supervisor.Life
import Chaperone.Proofs.Supervisor.Session

/-!
# Every child of a session leads a life

What is proved of a life holds of every child of every session: `Session.leads_life` finds the life
that a child has led.  Its first moment is the launch, and one moment follows for each look at the
child.  It hands over what the session handed over for the child, and its calls are among those of
the session.

So what the callbacks of a child were handed is all that was read from it
(`Session.heard_of_exited`).

A look of the session and a look of the life start with the same entry but with different traces and
different logs.  Both are the look that starts with none, carried over (`Entry.poll_hom`).
-/

namespace Chaperone

variable {σ ω : Type}

def Life.IsOf (host : Host ω) (n : Nat) (child : Child) (life : Life σ Trace) : Prop :=
  ∃ (executable : String) (args : List String) (options : LaunchOptions) (callbacks : Callbacks σ)
    (kill : Bool) (s : σ) (w : ω) (w' : ω × Log) (moments : List (σ × ω)),
    spawn host.logged executable args options (w, []) = (.ok child, w') ∧
      (launch host executable args options (callbacks.recorded n) kill s [] w).looks host moments =
        life

theorem Life.IsOf.look {host : Host ω} {n : Nat} {child : Child} {life : Life σ Trace}
    (h : life.IsOf host n child) (moment : σ × ω) : (life.look host moment).IsOf host n child := by
  obtain ⟨executable, args, options, callbacks, kill, s, w, w', moments, hspawn, hlife⟩ := h
  refine ⟨executable, args, options, callbacks, kill, s, w, w', moments ++ [moment], hspawn, ?_⟩
  exact (List.foldl_append ..).trans (congrArg (Life.look host · moment) hlife)

@[simp] theorem Trace.before_nil (trace : Trace) (s : σ) :
    Trace.before trace (s, []) = (s, trace) := congrArg (s, ·) (List.append_nil trace)

@[simp] theorem Log.before_nil (log : Log) (w : ω) : Log.before log (w, []) = (w, log) :=
  congrArg (w, ·) (List.append_nil log)

namespace Session

/-- The child `n` has led a life that left these entries, of what ran and what was called. -/
def Leads (host : Host ω) (trace : Trace) (log : Log) (n : Nat)
    (entries : List (Entry (σ × Trace))) : Prop :=
  ∃ (child : Child) (life : Life σ Trace), life.IsOf host n child ∧
    life.supervisor.entries = entries ∧
    Chaperone.firings n life.kept = Chaperone.firings n trace ∧ life.calls.Sublist log

variable {host : Host ω} {n : Nat} {trace trace' : Trace} {log log' : Log}
  {entries : List (Entry (σ × Trace))}

/-- A life does not depend on what runs for other children. -/
theorem Leads.congr (h : Leads host trace log n entries)
    (htrace : Chaperone.firings n trace' = Chaperone.firings n trace) (hlog : log.Sublist log') :
    Leads host trace' log' n entries := by
  obtain ⟨child, life, hof, hentries, hkept, hcalls⟩ := h
  exact ⟨child, life, hof, hentries, hkept.trans htrace.symm, hcalls.trans hlog⟩

/-- A look at the child is the next look of its life. -/
theorem Leads.poll {entry : Entry (σ × Trace)} {s : σ × Trace} {w : ω × Log}
    (h : Leads host s.2 w.2 n [entry]) (hattends : Attends n entry)
    {m : Entry (σ × Trace) × (σ × Trace) × ω × Log} (hm : entry.poll host.logged s w = m) :
    Leads host m.2.1.2 m.2.2.2 n ([m.1].filter fun entry => !entry.finished) ∧
      w.2.Sublist m.2.2.2 := by
  obtain ⟨child, ⟨⟨entries⟩, kept, calls⟩, hof, hentries, hkept, hcalls⟩ := h
  obtain rfl : entries = [entry] := hentries
  obtain ⟨s, trace⟩ := s
  obtain ⟨w, log⟩ := w
  obtain ⟨c, hc⟩ := hattends.callbacks
  have hlook (trace : Trace) (log : Log) :
      entry.poll host.logged (s, trace) (w, log) = (entry.poll host.logged (s, []) (w, [])).map id
        (.map (Trace.before trace) (Log.before log)) := by
    have hcarried : entry.callbacks.Carried (Trace.before trace) := by
      rw [hc]
      exact c.carried_recordedOn n trace
    rw [← Entry.poll_hom (host.before log) hcarried, Trace.before_nil, Log.before_nil]
  rw [hlook] at hm
  subst hm
  have hnext := hof.look (s, w)
  simp only [Life.look, Supervisor.poll, Supervisor.pollAll, hlook kept calls] at hnext
  generalize entry.poll host.logged (s, []) (w, []) = m at hnext ⊢
  refine ⟨⟨child, _, hnext, rfl, ?_, ?_⟩, List.sublist_append_left log m.2.2.2⟩
  · exact (firings_append ..).trans ((congrArg (· ++ _) hkept).trans (firings_append ..).symm)
  · exact hcalls.append (List.Sublist.refl m.2.2.2)

/-- The launch of a child is the first moment of its life. -/
theorem leads_launch {executable : String} {args : List String} {options : LaunchOptions}
    {child : Child} {w : ω} {w' : ω × Log}
    (hspawn : spawn host.logged executable args options (w, log) = (.ok child, w'))
    (callbacks : Callbacks σ) (kill : Bool) (s : σ)
    {m : Entry (σ × Trace) × (σ × Trace) × ω × Log}
    (hm : Entry.launched host.logged child (callbacks.recorded n) kill (s, trace) w' = m)
    (htrace : Chaperone.firings n trace = []) :
    Leads host m.2.1.2 m.2.2.2 n [m.1] ∧ log.Sublist m.2.2.2 := by
  have hcarried := callbacks.carried_recorded n trace
  rw [← Log.before_nil, spawn_hom (host.before log)] at hspawn
  generalize hfirst : spawn host.logged executable args options (w, []) = r at hspawn
  obtain ⟨result, w₁⟩ := r
  obtain ⟨rfl, rfl⟩ := Prod.mk.inj hspawn
  rw [← Trace.before_nil, Entry.launched_hom (host.before log) hcarried] at hm
  subst hm
  have hlife : Life.IsOf host n child _ :=
    ⟨executable, args, options, callbacks, kill, s, w, w₁, [], hfirst, rfl⟩
  simp only [Life.launch, Supervisor.launch, Supervisor.register, hfirst] at hlife
  generalize Entry.launched host.logged child (callbacks.recorded n) kill (s, []) w₁ = m at hlife ⊢
  refine ⟨⟨child, _, hlife, rfl, ?_, List.sublist_append_right log m.2.2.2⟩,
    List.sublist_append_left log m.2.2.2⟩
  exact ((firings_append ..).trans (congrArg (· ++ _) htrace)).symm

structure GoesOn (host : Host ω) (s : σ × Trace) (w : ω × Log) (n : Nat)
    (entry : Entry (σ × Trace)) : Prop where
  attends : Attends n entry
  running : hasExit (Chaperone.firings n s.2) = false
  leads : Leads host s.2 w.2 n [entry]

/-- One look at every child is the next look of each life. -/
theorem leads_pollAll {ns : List Nat} {entries : List (Entry (σ × Trace))} {s : σ × Trace}
    {w : ω × Log} (h : List.Forall₂ (GoesOn host s w) ns entries)
    (hns : ns.Nodup) {r : List (Entry (σ × Trace)) × (σ × Trace) × ω × Log}
    (hr : Supervisor.pollAll host.logged entries s w = r) :
    List.Forall₂ (fun n entry => hasExit (Chaperone.firings n r.2.1.2) = entry.finished ∧
      Leads host r.2.1.2 r.2.2.2 n ([entry].filter fun entry => !entry.finished)) ns r.1 ∧
        w.2.Sublist r.2.2.2 := by
  induction entries generalizing ns s w r with
  | nil =>
    cases h
    subst hr
    exact ⟨.nil, List.Sublist.refl _⟩
  | cons entry entries ih =>
    cases h with
    | @cons n _ ns _ hentry hrest =>
    obtain ⟨hn, hns⟩ := List.nodup_cons.mp hns
    rw [Supervisor.pollAll] at hr
    generalize hm : entry.poll host.logged s w = m at hr
    generalize hr' : Supervisor.pollAll host.logged entries m.2.1 m.2.2 = r'
    obtain rfl : r = (m.1 :: r'.1, r'.2) := by
      subst hr'
      exact hr.symm
    obtain ⟨answer, pieces, -, -, -, hfinished, -, htrace⟩ :=
      entry.poll_recorded host s w hentry.attends.callbacks hentry.attends.status
        hentry.attends.finished hm
    obtain ⟨hleads, hlog⟩ := hentry.leads.poll hentry.attends hm
    have hother (k : Nat) (hk : n ≠ k) :
        Chaperone.firings k m.2.1.2 = Chaperone.firings k s.2 := by
      rw [htrace, firings_append, firings_of_ne hk, List.append_nil]
    have hmoved : List.Forall₂ (GoesOn host m.2.1 m.2.2) ns entries := by
      have hne : ∀ k ∈ ns, n ≠ k := by
        rintro k hk rfl
        exact hn hk
      refine List.Forall₂.imp ?_ ((List.forall₂_and_left _ _).mpr ⟨hne, hrest⟩)
      rintro k e ⟨hk, hattends, hrunning, hled⟩
      exact ⟨hattends, by rwa [hother k hk], hled.congr (hother k hk) hlog⟩
    obtain ⟨hafter, hlog'⟩ := ih hmoved hns hr'
    have hattends : List.Forall₂ Attends ns entries := hrest.imp fun _ _ h => h.attends
    obtain ⟨-, -, -, -, -, hothers, -⟩ := pollAll_spec host hattends hns m.2.1 m.2.2 hr'
    refine ⟨.cons ⟨?_, hleads.congr (hothers n hn) hlog'⟩ hafter, hlog.trans hlog'⟩
    have hexit : hasExit (Chaperone.firings n m.2.1.2) = answer.status?.isSome := by
      rw [htrace, firings_append, firings_self, hasExit_append, hasExit_append, hasExit_output,
        hasExit_exited, hentry.running]
      rfl
    rw [hothers n hn, hexit, hfinished]

/-! ### Every session -/

/-- Every child of a session has led a life, and that of a running child left its entry. -/
structure Led (host : Host ω) (session : Session σ ω) : Prop where
  running : List.Forall₂ (fun n entry => Leads host session.shared.2 session.machine.2 n [entry])
    session.running session.supervisor.entries
  all : ∀ n < session.launches, ∃ entries : List (Entry (σ × Trace)),
    Leads host session.shared.2 session.machine.2 n entries

/-- An action that launches nothing and runs no callback. -/
theorem Led.of_eq {session session' : Session σ ω} (h : session.Led host)
    (hentries : session'.supervisor = session.supervisor)
    (htrace : session'.shared.2 = session.shared.2)
    (hlog : session.machine.2.Sublist session'.machine.2)
    (hlaunches : session'.launches = session.launches) : session'.Led host := by
  have hmoved {n : Nat} {entries : List (Entry (σ × Trace))}
      (hleads : Leads host session.shared.2 session.machine.2 n entries) :
      Leads host session'.shared.2 session'.machine.2 n entries :=
    hleads.congr (congrArg _ htrace) hlog
  refine ⟨?_, ?_⟩
  · rw [running_of_eq htrace hlaunches, hentries]
    exact h.running.imp fun _ _ => hmoved
  · intro n hn
    obtain ⟨entries, hleads⟩ := h.all n (hlaunches ▸ hn)
    exact ⟨entries, hmoved hleads⟩

theorem led_poll {session : Session σ ω} (hvalid : session.Valid) (h : session.Led host) :
    (session.poll host).Led host := by
  obtain ⟨hlooks, hvalid'⟩ := poll_spec hvalid host
  have hgoes : List.Forall₂ (GoesOn host session.shared session.machine) session.running
      session.supervisor.entries := by
    have hrunning : ∀ n ∈ session.running, hasExit (Chaperone.firings n session.shared.2) = false :=
      fun n hn => (mem_running.mp hn).2
    refine List.Forall₂.mp ?_ hvalid.attends
      ((List.forall₂_and_left _ _).mpr ⟨hrunning, h.running⟩)
    rintro n entry hattends ⟨hexit, hleads⟩
    exact ⟨hattends, hexit, hleads⟩
  obtain ⟨hafter, hlog⟩ := leads_pollAll hgoes (List.nodup_range.filter _) rfl
  refine ⟨?_, ?_⟩
  · have hleft := List.rel_filter (p := fun n => !hasExit ((session.poll host).firings n))
      (q := fun entry => !entry.finished) (fun n entry hentry => by
        exact Bool.eq_iff_iff.mp (congrArg not hentry.1)) hafter
    rw [← hlooks.running] at hleft
    refine List.Forall₂.mp ?_ hvalid'.attends hleft
    rintro n entry hattends ⟨-, hleads⟩
    rwa [List.filter_singleton, hattends.finished] at hleads
  · intro n hn
    by_cases hmem : n ∈ session.running
    · obtain ⟨entry, -, hleads⟩ := exists_of_forall₂ hafter hmem
      exact ⟨_, hleads⟩
    · obtain ⟨entries, hleads⟩ := h.all n (hlooks.launches ▸ hn)
      exact ⟨entries, hleads.congr (hlooks.others n hmem) hlog⟩

/-- Signals run no callback. -/
theorem sublist_signalEach {τ : Type} (signal : Signal) (entries : List (Entry τ)) (w : ω × Log) :
    w.2.Sublist (Supervisor.signalEach host.logged signal entries w).2 := by
  induction entries generalizing w with
  | nil => exact List.Sublist.refl _
  | cons entry entries ih =>
    obtain ⟨calls, hcalls, -⟩ := entry.child.tells_signal host w signal
    have hfirst : w.2.Sublist (entry.child.signal host.logged signal w).2.2 := by
      rw [hcalls]
      exact List.sublist_append_left ..
    exact hfirst.trans (ih _)

theorem led_waitSteps {session : Session σ ω} (hvalid : session.Valid) (h : session.Led host)
    {steps : List (Action σ ω)} (hsteps : ∀ step ∈ steps, IsWaitStep step) :
    (session.run host steps).Led host := by
  induction steps generalizing session with
  | nil => exact h
  | cons step steps ih =>
    obtain ⟨hstep, hsteps⟩ := List.forall_mem_cons.mp hsteps
    refine ih (valid_waitStep hvalid host hstep) ?_ hsteps
    rcases hstep with rfl | rfl | ⟨microseconds, rfl⟩
    · exact led_poll hvalid h
    · exact h.of_eq rfl rfl (List.sublist_append_left ..) rfl
    · exact h.of_eq rfl rfl (List.sublist_append_left ..) rfl

/-- A child that was launched begins its life, and the others go on with theirs. -/
theorem Led.register {session session' : Session σ ω} (hvalid : session.Valid)
    (h : session.Led host) {entry : Entry (σ × Trace)}
    (hleads : Leads host session'.shared.2 session'.machine.2 session.launches [entry])
    (hentries : session'.supervisor.entries = session.supervisor.entries ++ [entry])
    (htrace : session'.shared.2 = session.shared.2 ++ [(session.launches, .started)])
    (hlog : session.machine.2.Sublist session'.machine.2)
    (hlaunches : session'.launches = session.launches + 1) : session'.Led host := by
  have hmoved {n : Nat} (hn : n ≠ session.launches) {entries : List (Entry (σ × Trace))}
      (hleads : Leads host session.shared.2 session.machine.2 n entries) :
      Leads host session'.shared.2 session'.machine.2 n entries :=
    hleads.congr (firings_register_of_ne htrace hn) hlog
  refine ⟨?_, ?_⟩
  · rw [running_register hvalid.inOrder htrace hlaunches, hentries]
    refine List.rel_append ?_ (.cons hleads .nil)
    have hold : ∀ n ∈ session.running, n ≠ session.launches :=
      fun n hn => Nat.ne_of_lt (mem_running.mp hn).1
    exact ((List.forall₂_and_left _ _).mpr ⟨hold, h.running⟩).imp fun _ _ h => hmoved h.1 h.2
  · intro n hn
    by_cases hne : n = session.launches
    · subst hne
      exact ⟨_, hleads⟩
    · obtain ⟨entries, hleads⟩ := h.all n (by omega)
      exact ⟨entries, hmoved hne hleads⟩

theorem led_launch {session : Session σ ω} (hvalid : session.Valid) (h : session.Led host)
    (executable : String) (args : List String) (options : LaunchOptions)
    (callbacks : Callbacks σ) (kill : Bool) :
    (session.act host (.launch executable args options callbacks kill)).Led host := by
  obtain ⟨supervisor, ⟨s, trace⟩, ⟨w, log⟩, launches⟩ := session
  simp only [act, launch, Supervisor.launch]
  generalize hspawn : spawn host.logged executable args options (w, log) = spawned
  obtain ⟨result, w'⟩ := spawned
  cases result with
  | error cause =>
    refine h.of_eq rfl rfl ?_ rfl
    rcases log_of_spawn hspawn with hlog | ⟨request, answer, hlog⟩ <;> rw [hlog]
    exact List.sublist_append_left ..
  | ok child =>
    simp only [Supervisor.register]
    generalize hm : Entry.launched host.logged child (callbacks.recorded launches) kill
      (s, trace) w' = m
    obtain ⟨-, htrace⟩ :=
      Entry.launched_recorded host child launches callbacks kill s trace w' hm
    obtain ⟨hleads, hlog⟩ :=
      leads_launch hspawn callbacks kill s hm (hvalid.inOrder.unborn launches (Nat.le_refl _))
    exact h.register hvalid hleads rfl htrace hlog rfl

theorem led_act {session : Session σ ω} (hvalid : session.Valid) (h : session.Led host)
    (action : Action σ ω) : (session.act host action).Led host := by
  cases action with
  | launch executable args options callbacks kill => exact led_launch hvalid h ..
  | poll => exact led_poll hvalid h
  | wait rounds interval maxWait =>
    obtain ⟨steps, hsteps, hwait⟩ := wait_steps host rounds interval maxWait session
    rw [hwait]
    exact led_waitSteps hvalid h hsteps
  | signalAll signal => exact h.of_eq rfl rfl (sublist_signalEach ..) rfl
  | sleep | clock => exact h.of_eq rfl rfl (List.sublist_append_left ..) rfl
  | elsewhere change => exact h.of_eq rfl rfl (List.Sublist.refl _) rfl

theorem led_run {session : Session σ ω} (hvalid : session.Valid) (h : session.Led host)
    (actions : List (Action σ ω)) : (session.run host actions).Led host := by
  induction actions generalizing session with
  | nil => exact h
  | cons action actions ih => exact ih (act_spec hvalid host action).2 (led_act hvalid h action)

/-- **Every child of every session has led a life**, in which its callbacks ran as they ran in the
session, and whose calls were made in the session. -/
theorem leads_life (host : Host ω) (s : σ) (w : ω) (actions : List (Action σ ω)) {n : Nat}
    (hn : n < ((start s w).run host actions).launches) :
    ∃ (child : Child) (life : Life σ Trace), life.IsOf host n child ∧
      Chaperone.firings n life.kept = ((start s w).run host actions).firings n ∧
      life.calls.Sublist ((start s w).run host actions).machine.2 := by
  have hbegin : (start s w).Led host := ⟨.nil, fun _ h => absurd h (Nat.not_lt_zero _)⟩
  have hled := led_run (valid_start s w) hbegin actions
  obtain ⟨entries, child, life, hof, -, hkept, hcalls⟩ := hled.all n hn
  exact ⟨child, life, hof, hkept, hcalls⟩

/-- **In every session, once the exit of a child has been handed over, the text that was handed over
for a stream is the text of all bytes that were read from it.** -/
theorem heard_of_exited (host : Host ω) (s : σ) (w : ω) (actions : List (Action σ ω)) {n : Nat}
    {status : ExitStatus} (hexit : .exited status ∈ ((start s w).run host actions).firings n) :
    ∃ (child : Child) (life : Life σ Trace), life.IsOf host n child ∧
      life.calls.Sublist ((start s w).run host actions).machine.2 ∧
      ∀ stream, heard stream (outputs (((start s w).run host actions).firings n)) =
        Text.Utf8.lossy (received (child.pipe stream) life.calls) := by
  have hn : n < ((start s w).run host actions).launches := by
    by_contra hlate
    rw [(valid_run (valid_start s w) host actions).inOrder.unborn n (Nat.le_of_not_lt hlate)] at hexit
    cases hexit
  obtain ⟨child, life, hof, hkept, hcalls⟩ := leads_life host s w actions hn
  refine ⟨child, life, hof, hcalls, fun stream => ?_⟩
  rw [← hkept] at hexit ⊢
  obtain ⟨executable, args, options, callbacks, kill, s', w', spawned, moments, hspawn, rfl⟩ := hof
  exact Life.heard_of_stage (Life.stage_recorded host hspawn n callbacks kill s' moments) hexit
    stream

end Session

end Chaperone
