import Chaperone.Proofs.Child.Flush
import Chaperone.Proofs.Supervise.Account

/-!
# What becomes of a program that does not take its input

A program is given its input when it is launched, and what its pipe does not take then waits for the
looks that follow.  If the pipe fails at once the program is killed.  If it fails in a later look
nothing is sent to the program: the programs of a plan are registered as ones that survive that, and
once they are started their callbacks ask nothing of them (`Entry.Calm`).

* `Program.Opens`: the calls with which a program is launched, a signal included if there is one.
* `Entry.eases_poll`: a look sends no signal, whatever the pipes answer.
* `signals_of_run`: all signals of a run.
-/

namespace Chaperone

variable {σ κ ω : Type}

/-! ### Calls that send no signal -/

def Call.Gentle : Call → Prop
  | .kill _ _ _ => False
  | _ => True

theorem Call.Idle.gentle {call : Call} (h : call.Idle) : call.Gentle := by
  cases call with
  | kill => exact h.elim
  | _ => trivial

/-! ### A look -/

def Callbacks.Calm (callbacks : Callbacks σ) : Prop :=
  ∀ stream callback, callbacks.onOutput stream = some callback → ∀ occasion text memory s,
    ∃ result, callback occasion text memory s = .done result

/-- What callbacks remember has no part in it. -/
theorem Callbacks.Calm.remember {callbacks : Callbacks σ} (h : callbacks.Calm)
    (memory : callbacks.Memory) : (callbacks.remember memory).Calm := by
  intro stream
  cases stream with
  | stdout => exact h .stdout
  | stderr => exact h .stderr

namespace Entry

/-- The child survives it when queued input cannot be delivered, and nobody asks it to end. -/
structure Calm (entry : Entry σ) : Prop where
  survives : entry.killOnInputFailure = false
  callbacks : entry.callbacks.Calm

def Eases (m m' : Entry σ × σ × ω × Log) : Prop :=
  m.1.Calm → m'.1.Calm ∧ Only Call.Gentle m.2.2 m'.2.2

theorem Eases.trans {m m' m'' : Entry σ × σ × ω × Log} (h : Eases m m') (g : Eases m' m'') :
    Eases m m'' := by
  intro hcalm
  obtain ⟨hcalm', hcalls⟩ := h hcalm
  obtain ⟨hcalm'', hmore⟩ := g hcalm'
  exact ⟨hcalm'', hcalls.trans hmore⟩

theorem Calm.withChild {entry : Entry σ} (h : entry.Calm) (child : Child) :
    ({ entry with child } : Entry σ).Calm := ⟨h.survives, h.callbacks⟩

theorem Calm.withDecoder {entry : Entry σ} (h : entry.Calm) (decoder : Text.Utf8.Decoder)
    (stream : OutputStream) : (entry.withDecoder decoder stream).Calm := by
  cases stream <;> exact ⟨h.survives, h.callbacks⟩

variable (host : Host ω) (entry : Entry σ) (s : σ) (w : ω × Log)

theorem eases_emit (stream : OutputStream) (text : String) :
    Eases (entry, s, w) (entry.emit host.logged stream text s w) := by
  intro hcalm
  simp only [emit]
  split
  · exact ⟨hcalm, .refl _ _⟩
  · split
    · exact ⟨hcalm, .refl _ _⟩
    · next callback hcallback =>
      obtain ⟨result, hdone⟩ := hcalm.callbacks stream callback hcallback
        (entry.occasion host.logged w) text entry.callbacks.memory s
      rw [hdone]
      exact ⟨⟨hcalm.survives, hcalm.callbacks.remember _⟩, .refl _ _⟩

theorem eases_deliver (stream : OutputStream) :
    Eases (entry, s, w) (entry.deliver host.logged stream s w) := by
  rw [deliver_eq]
  refine Eases.trans ?_ (eases_emit host _ s _ stream _)
  intro hcalm
  have hread := (entry.child.readStream_spec stream host w).1
  exact ⟨(Calm.withChild hcalm _).withDecoder .., hread.imp fun _ h => h.empties.idle.gentle⟩

theorem eases_deliverTail (stream : OutputStream) :
    Eases (entry, s, w) (entry.deliverTail host.logged stream s w) := by
  refine Eases.trans ?_ (eases_emit host _ s w stream _)
  intro hcalm
  exact ⟨hcalm.withDecoder .., .refl _ _⟩

/-- The input may fail now, but the child is not registered as one that is killed then. -/
theorem eases_flush : Eases (entry, s, w)
    ((entry.flush host.logged w).1, s, (entry.flush host.logged w).2) := by
  intro hcalm
  have hflush := (Child.idle_flushStdin host entry.child w).imp fun _ h => h.gentle
  have hsurvives : ¬entry.killOnInputFailure = true := Bool.not_eq_true _ ▸ hcalm.survives
  simp only [flush]
  split
  · generalize entry.child.flushStdin host.logged w = r at hflush ⊢
    obtain ⟨result, child, w'⟩ := r
    cases result with
    | ok => exact ⟨hcalm.withChild child, hflush⟩
    | error cause =>
      dsimp only
      exact ⟨hcalm.withChild child, hflush⟩
  · exact ⟨hcalm, .refl _ _⟩

theorem gentle_tryWait (child : Child) :
    Only Call.Gentle w (child.tryWait host.logged w).2.2 := by
  have hreap : Only Call.Gentle w (host.logged.reap child.pid w).2 := .one (.reap _ _) trivial rfl
  obtain ⟨status, -, h⟩ | ⟨status, -, -, h⟩ | ⟨-, -, h⟩ := child.tryWait_cases host.logged w
  · rw [h]
    exact .refl _ _
  · rw [h]
    exact hreap.trans ((Child.empties_recordExit host status child _).imp fun _ h => h.idle.gentle)
  · rw [h]
    exact hreap

/-- Asking whether the child has ended sends no signal. -/
theorem eases_ask :
    let r := entry.child.tryWait host.logged w
    Eases (entry, s, w) ({ entry with child := r.2.1 }, s, r.2.2) := by
  intro r hcalm
  exact ⟨hcalm.withChild r.2.1, gentle_tryWait host w entry.child⟩

theorem eases_conclude (status : ExitStatus) :
    Eases (entry, s, w) (entry.conclude host.logged status s w) := by
  intro hcalm
  refine ⟨⟨hcalm.survives, ?_⟩, .refl _ _⟩
  intro stream
  cases stream with
  | stdout => exact hcalm.callbacks .stdout
  | stderr => exact hcalm.callbacks .stderr

theorem parts_eases (host : Host ω) :
    Parts host.logged (fun m m' : Entry σ × σ × ω × Log => Eases m m') where
  trans := Eases.trans
  flush := eases_flush host
  deliver := eases_deliver host
  deliverTail := eases_deliverTail host
  ask := eases_ask host
  conclude := eases_conclude host

/-- **A look sends no signal** to the child of a calm entry, whatever the pipes answer. -/
theorem eases_poll : Eases (entry, s, w) (entry.poll host.logged s w) :=
  (parts_eases host).poll entry s w

end Entry

/-! ### All children -/

namespace Supervisor

def Eased (w : ω × Log) (state : Supervisor σ × σ × ω × Log) : Prop :=
  (∀ entry ∈ state.1.entries, entry.Calm) ∧ Only Call.Gentle w state.2.2

variable {w₀ : ω × Log} {supervisor : Supervisor σ} {s : σ} {w : ω × Log}

theorem eased_pollAll (host : Host ω) {entries : List (Entry σ)}
    (h : ∀ entry ∈ entries, entry.Calm) (s : σ) (w : ω × Log) :
    let r := pollAll host.logged entries s w
    (∀ entry ∈ r.1, entry.Calm) ∧ Only Call.Gentle w r.2.2 := by
  induction entries generalizing s w with
  | nil => exact ⟨h, .refl _ _⟩
  | cons entry rest ih =>
    obtain ⟨hentry, hrest⟩ := List.forall_mem_cons.mp h
    obtain ⟨hpolled, hcalls⟩ := entry.eases_poll host s w hentry
    obtain ⟨hothers, hmore⟩ := ih hrest (entry.poll host.logged s w).2.1
      (entry.poll host.logged s w).2.2
    exact ⟨List.forall_mem_cons.mpr ⟨hpolled, hothers⟩, hcalls.trans hmore⟩

theorem Eased.poll (h : Eased w₀ (supervisor, s, w)) (host : Host ω) :
    Eased w₀ (supervisor.poll host.logged s w).2 := by
  obtain ⟨hcalm, hcalls⟩ := h
  obtain ⟨hpolled, hmore⟩ := eased_pollAll host hcalm s w
  exact ⟨fun entry hentry => hpolled entry (List.mem_of_mem_filter hentry), hcalls.trans hmore⟩

/-- The rounds of a wait send no signal. -/
theorem keeps_eased (host : Host ω) (w₀ : ω × Log) :
    Keeps host.logged (Eased w₀ : Supervisor σ × σ × ω × Log → Prop) where
  poll _ _ _ h := h.poll host
  sleep _ _ _ time h := ⟨h.1, h.2.trans (.one (.sleep time) trivial rfl)⟩
  now _ _ _ h := ⟨h.1, h.2.trans (.one (.now _) trivial rfl)⟩

/-- A wait that gives up has read the clock last. -/
theorem Eased.giveUp (h : Eased w₀ (supervisor, s, w)) {host : Host ω} {fuel interval : Nat}
    {maxWait : Option Nat} {result : Supervisor σ × σ × ω × Log}
    (hwait : supervisor.wait host.logged fuel interval maxWait s w = (some false, result)) :
    ∃ calls time, result.2.2.2 = w₀.2 ++ (calls ++ [.now time]) ∧
      ∀ call ∈ calls ++ [.now time], call.Gentle := by
  obtain ⟨last, hlast, hround⟩ := (keeps_eased host w₀).last h hwait
  obtain ⟨limit, -, -, -, rfl⟩ := waitRound_giveUp hround
  obtain ⟨-, calls, hlog, hcalls⟩ := hlast.poll host
  let time := (reading host.logged interval last).1
  refine ⟨calls ++ [.sleep interval], time, ?_, ?_⟩
  · rw [← List.append_assoc, ← List.append_assoc, ← hlog]
    rfl
  · intro call hcall
    simp only [List.append_assoc, List.cons_append, List.nil_append, List.mem_append,
      List.mem_cons, List.not_mem_nil, or_false] at hcall
    obtain hcall | rfl | rfl := hcall
    · exact hcalls call hcall
    · trivial
    · trivial

/-- Every entry is sent the signal at most once, and nothing else is done. -/
theorem kills_signalEach (host : Host ω) (signal : Signal) (entries : List (Entry σ))
    (w : ω × Log) : Only (fun call => ∃ target answer, call = .kill target signal answer) w
      (signalEach host.logged signal entries w) := by
  induction entries generalizing w with
  | nil => exact .refl _ _
  | cons entry rest ih =>
    refine .trans ?_ (ih _)
    obtain ⟨-, h⟩ | ⟨-, answer, hlog⟩ := entry.child.signal_cases host w signal
    · rw [h]
      exact .refl _ _
    · exact .one _ ⟨_, _, rfl⟩ hlog

end Supervisor

/-! ### The launch of a program -/

/-- The child with an input that is all of what it will get. -/
def Child.given (child : Child) (input : String) : Child :=
  { child with
    pendingInput := child.pendingInput ++ Text.Utf8.encode input
    closeWhenFlushed := true }

inductive Fed (child : Child) (input : String) : Log → Prop where
  /-- Without input it is only told so. -/
  | without {calls : Log} (hinput : input = "") (hcalls : ∀ call ∈ calls, call.Gentle) :
      Fed child input calls
  /-- It has no pipe for its input. -/
  | unpiped (hinput : input ≠ "") (hstdin : child.stdin = none) (answer : Except Errno Unit) :
      Fed child input [.kill child.target .kill answer]
  /-- The pipe takes what it can, and the rest waits. -/
  | taken {d : Descriptor} {writes : Log} {child' : Child} (hinput : input ≠ "")
      (hstdin : child.stdin = some d) (h : Flushed (child.given input) d writes (.ok ()) child') :
      Fed child input writes
  /-- The pipe fails at once. -/
  | rejected {d : Descriptor} {writes : Log} {cause : WriteError} {child' : Child}
      (hinput : input ≠ "") (hstdin : child.stdin = some d)
      (h : Flushed (child.given input) d writes (.error cause) child')
      (answer : Except Errno Unit) :
      Fed child input (writes ++ [.kill child.target .kill answer])

theorem Child.write_given {child : Child} {d : Descriptor} (hnew : child.exited = false)
    (hd : child.stdin = some d) (host : Host ω) (input : String) (w : ω) :
    child.write host (Text.Utf8.encode input) true w = (child.given input).flushStdin host w := by
  simp [write, given, hnew, stdinOpen, hd]

/-- A child that was just started is given its input. -/
theorem fed_of_feed (host : Host ω) {child : Child} (hnew : child.exited = false) (input : String)
    (w : ω × Log) : ∃ calls, ((Script.feed input).run host.logged child w).2.2.2 = w.2 ++ calls ∧
      Fed child input calls := by
  have hkilled (child' : Child) (hsame : child'.withoutInput = child.withoutInput)
      (w' : ω × Log) : ∃ answer, (child'.signal host.logged .kill w').2.2 =
        w'.2 ++ [.kill child.target .kill answer] := by
    rcases Child.signal_cases host child' w' .kill with ⟨hexited, -⟩ | ⟨-, hlog⟩
    · rw [Child.exited, Child.status_of_withoutInput hsame] at hexited
      exact absurd hexited (Bool.not_eq_true _ ▸ hnew)
    · rwa [Child.target_of_withoutInput hsame] at hlog
  by_cases hinput : input = ""
  · obtain ⟨calls, hlog, hcalls⟩ := child.idle_closeStdin host w
    refine ⟨calls, ?_, .without hinput fun call hcall => (hcalls call hcall).gentle⟩
    subst hinput
    exact hlog
  · rw [Script.feed, if_neg (by simpa using hinput), Script.run]
    cases hd : child.stdin with
    | none =>
      have hwrite : child.write host.logged (Text.Utf8.encode input) true w =
          (.error (.closed child.pid), child, w) := by simp [Child.write, Child.stdinOpen, hd]
      obtain ⟨answer, hlog⟩ := hkilled child rfl w
      rw [hwrite]
      exact ⟨_, hlog, .unpiped hinput hd answer⟩
    | some d =>
      obtain ⟨writes, hlog, hflushed⟩ := Child.flushStdin_spec host (child.given input) w hd
      rw [Child.write_given hnew hd]
      generalize (child.given input).flushStdin host.logged w = r at hlog hflushed
      obtain ⟨result, child', w'⟩ := r
      cases result with
      | ok => exact ⟨writes, hlog, .taken hinput hd hflushed⟩
      | error cause =>
        obtain ⟨answer, hkill⟩ := hkilled child' hflushed.withoutInput w'
        refine ⟨_, ?_, .rejected hinput hd hflushed answer⟩
        rw [← List.append_assoc, ← hlog]
        exact hkill

inductive Program.Opens (program : Program) (host : Host ω) : Log → Prop where
  | refused {w : ω} {w' : ω × Log} {cause : SpawnError}
      (h : spawn host.logged program.executable program.arguments program.options (w, []) =
        (.error cause, w')) : Opens program host w'.2
  | started {w : ω} {w' : ω × Log} {child : Child} {calls : Log}
      (h : spawn host.logged program.executable program.arguments program.options (w, []) =
        (.ok child, w')) (hfed : Fed child (program.input.getD "") calls) :
      Opens program host (w'.2 ++ calls)

namespace Supervise

variable {supervisor : Supervisor (Record κ)}

/-- The callbacks of a program give it its input, and then ask nothing of it. -/
theorem fed_launched (host : Host ω) (desk : Desk κ) (place : Nat) (program : Program)
    {child : Child} (hnew : child.status = none) (record : Record κ) (w : ω × Log)
    {m : Entry (Record κ) × Record κ × ω × Log}
    (hm : Entry.launched host.logged child (desk.callbacks place program) false record w = m) :
    m.1.Calm ∧ ∃ calls, m.2.2.2 = w.2 ++ calls ∧ Fed child (program.input.getD "") calls := by
  have hexited : child.exited = false := by rw [Child.exited, hnew]; rfl
  obtain ⟨calls, hlog, hfed⟩ := fed_of_feed host hexited (program.input.getD "") w
  simp only [Entry.launched, Desk.callbacks, Script.run_bind] at hm
  subst hm
  refine ⟨⟨rfl, ?_⟩, calls, hlog, hfed⟩
  intro stream
  cases stream <;> rintro _ ⟨⟩ occasion text memory s <;> exact ⟨_, rfl⟩

theorem opens_launch (host : Host ω) (hcalm : ∀ entry ∈ supervisor.entries, entry.Calm)
    (desk : Desk κ) (place : Nat) (program : Program) (record : Record κ) (w : ω × Log) :
    let r := launch host.logged program (desk.callbacks place program) supervisor record w
    (∀ entry ∈ r.2.1.entries, entry.Calm) ∧
      ∃ own, r.2.2.2.2 = w.2 ++ own ∧ program.Opens host own := by
  obtain ⟨v, log⟩ := w
  rw [launch_eq, Supervisor.launch, spawn_after]
  generalize hspawn : spawn host.logged program.executable program.arguments program.options
    (v, []) = spawned
  obtain ⟨result, w'⟩ := spawned
  cases result with
  | error cause => exact ⟨hcalm, w'.2, rfl, .refused hspawn⟩
  | ok child =>
    simp only [Supervisor.register]
    generalize hm : Entry.launched host.logged child (desk.callbacks place program) false record
      (w'.1, log ++ w'.2) = m
    obtain ⟨hentry, calls, hlog, hfed⟩ :=
      fed_launched host desk place program (status_of_spawn hspawn) record _ hm
    refine ⟨?_, w'.2 ++ calls, ?_, .started hspawn hfed⟩
    · intro entry hmem
      rcases List.mem_append.mp hmem with hmem | hmem
      · exact hcalm entry hmem
      · rwa [List.mem_singleton.mp hmem]
    · rw [← List.append_assoc]
      exact hlog

/-- All programs are launched, in the order of the plan. -/
theorem opens_launchAll (host : Host ω) (hcalm : ∀ entry ∈ supervisor.entries, entry.Calm)
    (desk : Desk κ) (place : Nat) (programs : List Program) (record : Record κ) (w : ω × Log) :
    let r := launchAll host.logged desk place programs supervisor record w
    (∀ entry ∈ r.2.1.entries, entry.Calm) ∧
      ∃ starts : List Log, r.2.2.2.2 = w.2 ++ starts.flatten ∧
        List.Forall₂ (fun program own => program.Opens host own) programs starts := by
  induction programs generalizing place supervisor record w with
  | nil => exact ⟨hcalm, [], (List.append_nil _).symm, .nil⟩
  | cons program rest ih =>
    obtain ⟨hcalm', own, hlog, hopens⟩ := opens_launch host hcalm desk place program record w
    simp only [launchAll]
    generalize launch host.logged program (desk.callbacks place program) supervisor record w = r
      at hcalm' hlog ⊢
    obtain ⟨result, supervisor', record', w'⟩ := r
    have hgoes (record'' : Record κ) := ih hcalm' (place + 1) record'' w'
    have hcons {starts : List Log} : w'.2 ++ starts.flatten = w.2 ++ (own :: starts).flatten := by
      rw [hlog, List.flatten_cons, List.append_assoc]
    cases result with
    | ok pid =>
      obtain ⟨hcalm'', starts, hrest, hall⟩ := hgoes record'
      exact ⟨hcalm'', own :: starts, hrest.trans hcons, .cons hopens hall⟩
    | error cause =>
      obtain ⟨hcalm'', starts, hrest, hall⟩ := hgoes _
      exact ⟨hcalm'', own :: starts, hrest.trans hcons, .cons hopens hall⟩

/-! ### All signals of a run -/

/-- The calls of a run: those of the launches, those of the wait for the programs, and, when it
gives up, the signals that end the programs that are left and what is done then. -/
structure Signalling (host : Host ω) (plan : Plan) (summary : Option Summary) (starts : List Log)
    (waited kills rest : Log) : Prop where
  launches : List.Forall₂ (fun program own => program.Opens host own) plan.programs starts
  gentle : ∀ call ∈ waited ++ rest, call.Gentle
  deadly : ∀ call ∈ kills, ∃ target answer, call = .kill target .kill answer
  asked : plan.terminateOnTimeout = false → kills = []
  /-- When the wait gives up it has read the clock, and the run has failed. -/
  late : kills ++ rest ≠ [] → (∃ time, waited.getLast? = some (.now time)) ∧
    ∀ result, summary = some result → result.timedOut = true

def Signals (host : Host ω) (plan : Plan) (summary : Option Summary) (log : Log) : Prop :=
  ∃ (starts : List Log) (waited kills rest : Log),
    log = starts.flatten ++ waited ++ kills ++ rest ∧
      Signalling host plan summary starts waited kills rest

/-- The children that are left are killed and waited for. -/
theorem calls_terminate (host : Host ω) (hcalm : ∀ entry ∈ supervisor.entries, entry.Calm)
    (fuel interval : Nat) (record : Record κ) (w : ω × Log) :
    ∃ kills rest : Log,
      (supervisor.wait host.logged fuel interval none record
          (supervisor.signalAll host.logged .kill w)).2.2.2.2 = w.2 ++ kills ++ rest ∧
        (∀ call ∈ kills, ∃ target answer, call = .kill target .kill answer) ∧
        ∀ call ∈ rest, call.Gentle := by
  obtain ⟨kills, hkills, hdeadly⟩ := Supervisor.kills_signalEach host .kill supervisor.entries w
  have hbegin : Supervisor.Eased (supervisor.signalAll host.logged .kill w)
      (supervisor, record, supervisor.signalAll host.logged .kill w) := ⟨hcalm, .refl _ _⟩
  obtain ⟨-, rest, hrest, hgentle⟩ :=
    (Supervisor.keeps_eased host _).wait fuel interval none hbegin
  refine ⟨kills, rest, ?_, hdeadly, hgentle⟩
  rw [hrest, ← hkills]
  rfl

/-- **The signals of a run.**  A program is killed when it is launched, if its pipe fails at the
first flush of its input.  After the launches no signal is sent, whatever the pipes answer then,
until the wait gives up; the programs that are left are killed then if the plan says so, and that
is all. -/
theorem signals_of_run (host : Host ω) (fuel : Nat) (plan : Plan) (desk : Desk κ) (kept : κ)
    (w : ω) :
    let r := carryOut host.logged fuel plan desk kept (w, [])
    Signals host plan r.1 r.2.2.2 := by
  simp only [carryOut]
  have hnone : ∀ entry ∈ (Supervisor.new : Supervisor (Record κ)).entries, entry.Calm :=
    fun _ hentry => absurd hentry List.not_mem_nil
  have hlaunched := opens_launchAll host hnone desk 0 plan.programs { kept } (w, [])
  generalize launchAll host.logged desk 0 plan.programs .new { kept } (w, []) = launched
    at hlaunched
  obtain ⟨failures, supervisor, record, w₁⟩ := launched
  obtain ⟨hcalm, starts, hlog, hlaunches⟩ := hlaunched
  rw [List.nil_append] at hlog
  have hbegin : Supervisor.Eased w₁ (supervisor, record, w₁) := ⟨hcalm, .refl _ _⟩
  have hwaited := (Supervisor.keeps_eased host w₁).wait fuel (plan.pollingIntervalMs * 1000)
    (plan.maxWaitMs.map (· * 1000)) hbegin
  dsimp only
  generalize hwait : supervisor.wait host.logged fuel (plan.pollingIntervalMs * 1000)
    (plan.maxWaitMs.map (· * 1000)) record w₁ = waited at hwaited ⊢
  obtain ⟨verdict, supervisor, record, w₂⟩ := waited
  obtain ⟨hleft, calls, hcalls, hgentle⟩ := hwaited
  -- As long as the wait has not given up nothing follows it.
  have hquiet (summary : Option Summary) : Signals host plan summary w₂.2 := by
    refine ⟨starts, calls, [], [], ?_, hlaunches, ?_, List.forall_mem_nil _, fun _ => rfl,
      fun h => absurd rfl h⟩
    · rw [hcalls, hlog, List.append_nil, List.append_nil]
    · rwa [List.append_nil]
  obtain _ | _ | _ := verdict
  · exact hquiet none
  · obtain ⟨calls, time, hcalls, hgentle⟩ := hbegin.giveUp hwait
    have hend (w₃ : ω × Log) (summary : Option Summary) (kills rest : Log)
        (hlog₃ : w₃.2 = w₂.2 ++ kills ++ rest) (hrest : ∀ call ∈ rest, call.Gentle)
        (hdeadly : ∀ call ∈ kills, ∃ target answer, call = .kill target .kill answer)
        (hasked : plan.terminateOnTimeout = false → kills = [])
        (hlate : ∀ result, summary = some result → result.timedOut = true) :
        Signals host plan summary w₃.2 := by
      refine ⟨starts, calls ++ [.now time], kills, rest, ?_, hlaunches,
        List.forall_mem_append.mpr ⟨hgentle, hrest⟩, hdeadly, hasked,
        fun _ => ⟨⟨time, List.getLast?_concat ..⟩, hlate⟩⟩
      rw [hlog₃, hcalls, hlog]
    dsimp only
    split
    · next hterminate =>
      obtain ⟨kills, rest, hlog₃, hdeadly, hgentle⟩ :=
        calls_terminate host hleft fuel (plan.pollingIntervalMs * 1000) record w₂
      have hasked : plan.terminateOnTimeout = false → kills = [] := by simp [hterminate]
      generalize supervisor.wait host.logged fuel (plan.pollingIntervalMs * 1000) none record
        (supervisor.signalAll host.logged .kill w₂) = reaped at hlog₃ ⊢
      obtain ⟨_ | verdict, supervisor, record, w₃⟩ := reaped
      · exact hend w₃ none kills rest hlog₃ hgentle hdeadly hasked (by rintro _ ⟨⟩)
      · exact hend w₃ _ kills rest hlog₃ hgentle hdeadly hasked (by rintro _ ⟨⟩; rfl)
    · obtain ⟨rest, hlog₃, hcloses⟩ := supervisor.closes_release host w₂
      refine hend _ _ [] rest ?_ ?_ (List.forall_mem_nil _) (fun _ => rfl) (by rintro _ ⟨⟩; rfl)
      · rwa [List.append_nil]
      · intro call hcall
        obtain ⟨d, rfl⟩ := hcloses call hcall
        trivial
  · exact hquiet _

/-- What the program of a plan is offered, and the signals that it is sent, in two looks at it. -/
def trialOf (answers : List WriteResult) : List (List UInt8 × WriteResult ⊕ Signal) :=
  let program : Program := { name := "a", command := "/bin/cat", input := some "ab" }
  let log := (carryOut Host.lone.logged 2 { programs := [program] } ⟨.json, fun _ _ _ => ()⟩ ()
    ({ answers, output := [] }, [])).2.2.2
  log.filterMap fun
    | .write _ bytes result => some (.inl (bytes, result))
    | .kill _ signal _ => some (.inr signal)
    | _ => none

/-- A pipe that fails at once, and one that takes a byte and fails in a later look. -/
example :
    trialOf [.brokenPipe] = [.inl ([97, 98], .brokenPipe), .inr .kill] ∧
      trialOf [.wrote 1, .wouldBlock, .brokenPipe] =
        [.inl ([97, 98], .wrote 1), .inl ([98], .wouldBlock), .inl ([98], .brokenPipe)] := by
  constructor <;> cbv

end Supervise

end Chaperone
