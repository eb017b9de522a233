import Chaperone.Proofs.Child.Hom
import Chaperone.Proofs.Supervisor.Recording
import Chaperone.Supervisor.Basic

/-!
# Looks that go alike

A look at a child reaches the machine through its calls and the state that all callbacks share
through the callbacks of this child.  So if a map of machines carries the answers (`Host.Hom`) and a
map of shared states carries what these callbacks do (`Callbacks.Carried`), both together carry the
look (`Entry.poll_hom`).

* `Supervisor.launch_logged`: to keep a log changes nothing about a launch.
* `Callbacks.carried_recorded`: what recorded callbacks do does not depend on what was written down
  before.
-/

namespace Chaperone

variable {σ ω ω' : Type}

def Script.onShared {μ : Type} (g : σ → σ) (script : Script (μ × σ)) : Script (μ × σ) :=
  script.bind fun (memory, s) => .done (memory, g s)

theorem Script.run_onShared {μ : Type} (host : Host ω) (g : σ → σ) (script : Script (μ × σ))
    (child : Child) (w : ω) :
    (script.onShared g).run host child w = (script.run host child w).map (.map id g) id := by
  rw [onShared, run_bind]
  rfl

structure Callbacks.Carried (g : σ → σ) (c : Callbacks σ) : Prop where
  onStarted : ∀ callback, c.onStarted = some callback → ∀ occasion memory s,
    callback occasion memory (g s) = (callback occasion memory s).onShared g
  onOutput : ∀ stream callback, c.onOutput stream = some callback → ∀ occasion text memory s,
    callback occasion text memory (g s) = (callback occasion text memory s).onShared g
  onExit : ∀ callback, c.onExit = some callback → ∀ occasion status memory s,
    callback occasion status memory (g s) = g (callback occasion status memory s)

/-- What callbacks remember has no part in it. -/
theorem Callbacks.Carried.remember {g : σ → σ} {c : Callbacks σ} (h : c.Carried g)
    (memory : c.Memory) : (c.remember memory).Carried g :=
  ⟨h.onStarted, fun stream => by cases stream; exacts [h.onOutput .stdout, h.onOutput .stderr],
    h.onExit⟩

theorem Script.onShared_id {μ : Type} (script : Script (μ × σ)) : script.onShared id = script := by
  induction script with
  | done value => rfl
  | write text close next ih => exact congrArg (Script.write text close) (funext ih)
  | closeStdin next ih => exact congrArg Script.closeStdin ih
  | signal s next ih => exact congrArg (Script.signal s) (funext ih)

theorem Callbacks.carried_id (c : Callbacks σ) : c.Carried id where
  onStarted _ _ _ _ _ := (Script.onShared_id _).symm
  onOutput _ _ _ _ _ _ _ := (Script.onShared_id _).symm
  onExit _ _ _ _ _ _ := rfl

namespace Entry

variable {host : Host ω} {host' : Host ω'} {f : ω → ω'} {g : σ → σ} {entry : Entry σ}

/-! ### The callbacks that are left -/

theorem carried_emit (hc : entry.callbacks.Carried g) (host : Host ω) (stream : OutputStream)
    (text : String) (s : σ) (w : ω) : (entry.emit host stream text s w).1.callbacks.Carried g := by
  simp only [emit]
  split
  · exact hc
  · split
    · exact hc
    · exact hc.remember _

theorem carried_deliver (hc : entry.callbacks.Carried g) (host : Host ω) (stream : OutputStream)
    (s : σ) (w : ω) : (entry.deliver host stream s w).1.callbacks.Carried g := by
  rw [deliver_eq]
  refine carried_emit ?_ ..
  rw [callbacks_withDecoder]
  exact hc

theorem carried_deliverTail (hc : entry.callbacks.Carried g) (host : Host ω) (stream : OutputStream)
    (s : σ) (w : ω) : (entry.deliverTail host stream s w).1.callbacks.Carried g := by
  refine carried_emit ?_ ..
  rw [callbacks_withDecoder]
  exact hc

theorem carried_flush (hc : entry.callbacks.Carried g) (host : Host ω) (w : ω) :
    (entry.flush host w).1.callbacks.Carried g := by
  rw [(entry.flush_entry host w).1]
  exact hc

theorem carried_exchange (hc : entry.callbacks.Carried g) (host : Host ω) (s : σ) (w : ω) :
    (entry.exchange host s w).1.callbacks.Carried g :=
  carried_deliver (carried_deliver (carried_flush hc host w) ..) ..

theorem carried_deliverRest (hc : entry.callbacks.Carried g) (host : Host ω) (s : σ) (w : ω) :
    (entry.deliverRest host s w).1.callbacks.Carried g :=
  carried_deliverTail (carried_deliverTail (carried_deliver (carried_deliver hc ..) ..) ..) ..

/-! ### The parts of a look -/

theorem occasion_hom (h : Host.Hom host host' f) (entry : Entry σ) (w : ω) :
    entry.occasion host' (f w) = entry.occasion host w := by
  rw [occasion, occasion, h.wallClock]

theorem launched_hom (h : Host.Hom host host' f) {callbacks : Callbacks σ}
    (hc : callbacks.Carried g) (child : Child) (kill : Bool) (s : σ) (w : ω) :
    launched host' child callbacks kill (g s) (f w) =
      (launched host child callbacks kill s w).map id (.map g f) := by
  simp only [launched]
  split
  · rfl
  · next started hstarted =>
    rw [hc.onStarted started hstarted, h.wallClock, Script.run_hom h, Script.run_onShared]
    rfl

theorem emit_hom (h : Host.Hom host host' f) (hc : entry.callbacks.Carried g)
    (stream : OutputStream) (text : String) (s : σ) (w : ω) :
    entry.emit host' stream text (g s) (f w) =
      (entry.emit host stream text s w).map id (.map g f) := by
  simp only [emit]
  split
  · rfl
  · split
    · rfl
    · next callback hcallback =>
      rw [hc.onOutput stream callback hcallback, occasion_hom h, Script.run_hom h,
        Script.run_onShared]
      rfl

theorem deliver_hom (h : Host.Hom host host' f) (hc : entry.callbacks.Carried g)
    (stream : OutputStream) (s : σ) (w : ω) :
    entry.deliver host' stream (g s) (f w) =
      (entry.deliver host stream s w).map id (.map g f) := by
  rw [deliver_eq, deliver_eq, Child.readStream_hom h]
  refine emit_hom h ?_ ..
  rw [callbacks_withDecoder]
  exact hc

theorem deliverTail_hom (h : Host.Hom host host' f) (hc : entry.callbacks.Carried g)
    (stream : OutputStream) (s : σ) (w : ω) :
    entry.deliverTail host' stream (g s) (f w) =
      (entry.deliverTail host stream s w).map id (.map g f) := by
  refine emit_hom h ?_ ..
  rw [callbacks_withDecoder]
  exact hc

theorem flush_hom (h : Host.Hom host host' f) (entry : Entry σ) (w : ω) :
    entry.flush host' (f w) = (entry.flush host w).map id f := by
  simp only [flush]
  split
  · rw [Child.flushStdin_hom h]
    generalize entry.child.flushStdin host w = r
    obtain ⟨_ | _, child, w'⟩ := r
    · dsimp only [Prod.map, id]
      split
      · rw [Child.signal_hom h]
        rfl
      · rfl
    · rfl
  · rfl

theorem exchange_hom (h : Host.Hom host host' f) (hc : entry.callbacks.Carried g) (s : σ) (w : ω) :
    entry.exchange host' (g s) (f w) = (entry.exchange host s w).map id (.map g f) := by
  have hflush := carried_flush hc host w
  have hdeliver := carried_deliver hflush host .stdout s (entry.flush host w).2
  simp only [exchange, flush_hom h]
  rw [Prod.map_fst, Prod.map_snd, id, deliver_hom h hflush]
  exact deliver_hom h hdeliver ..

theorem deliverRest_hom (h : Host.Hom host host' f) (hc : entry.callbacks.Carried g) (s : σ)
    (w : ω) :
    entry.deliverRest host' (g s) (f w) = (entry.deliverRest host s w).map id (.map g f) := by
  simp only [deliverRest, deliver_hom h hc]
  have h₁ := carried_deliver hc host .stdout s w
  generalize entry.deliver host .stdout s w = m₁ at h₁
  have h₂ := carried_deliver h₁ host .stderr m₁.2.1 m₁.2.2
  have hsecond := deliver_hom h h₁ .stderr m₁.2.1 m₁.2.2
  simp only [Prod.map_fst, Prod.map_snd, id, hsecond]
  generalize m₁.1.deliver host .stderr m₁.2.1 m₁.2.2 = m₂ at h₂
  have h₃ := carried_deliverTail h₂ host .stdout m₂.2.1 m₂.2.2
  have hthird := deliverTail_hom h h₂ .stdout m₂.2.1 m₂.2.2
  simp only [Prod.map_fst, Prod.map_snd, id, hthird]
  generalize m₂.1.deliverTail host .stdout m₂.2.1 m₂.2.2 = m₃ at h₃
  exact deliverTail_hom h h₃ .stderr m₃.2.1 m₃.2.2

theorem conclude_hom (h : Host.Hom host host' f) (hc : entry.callbacks.Carried g)
    (status : ExitStatus) (s : σ) (w : ω) :
    entry.conclude host' status (g s) (f w) =
      (entry.conclude host status s w).map id (.map g f) := by
  simp only [conclude, Callbacks.takeExit]
  cases he : entry.callbacks.onExit with
  | none => rfl
  | some callback =>
    simp only [Option.map_some, occasion_hom h, hc.onExit callback he]
    rfl

/-! ### A look -/

/-- **A look at a child is carried over.** -/
theorem poll_hom (h : Host.Hom host host' f) (hc : entry.callbacks.Carried g) (s : σ) (w : ω) :
    entry.poll host' (g s) (f w) = (entry.poll host s w).map id (.map g f) := by
  have hexchange := carried_exchange hc host s w
  simp only [poll, exchange_hom h hc, Prod.map_fst, Prod.map_snd, id]
  generalize entry.exchange host s w = m at hexchange
  rw [Child.tryWait_hom h]
  generalize m.1.child.tryWait host m.2.2 = r
  obtain ⟨_ | _ | status, child, w'⟩ := r
  · rfl
  · rfl
  · have hrest : ({ m.1 with child } : Entry σ).callbacks.Carried g := hexchange
    simp only [Prod.map_apply, id, finish, deliverRest_hom h hrest, Prod.map_fst, Prod.map_snd]
    exact conclude_hom h (carried_deliverRest hrest ..) ..

end Entry

/-! ### Every child -/

namespace Supervisor

variable {host : Host ω} {host' : Host ω'} {f : ω → ω'} {g : σ → σ}

theorem pollAll_hom (h : Host.Hom host host' f) {entries : List (Entry σ)}
    (hc : ∀ entry ∈ entries, entry.callbacks.Carried g) (s : σ) (w : ω) :
    pollAll host' entries (g s) (f w) = (pollAll host entries s w).map id (.map g f) := by
  induction entries generalizing s w with
  | nil => rfl
  | cons entry entries ih =>
    obtain ⟨hentry, hrest⟩ := List.forall_mem_cons.mp hc
    simp only [pollAll, Entry.poll_hom h hentry, Prod.map_fst, Prod.map_snd, id, ih hrest]
    rfl

theorem poll_hom (h : Host.Hom host host' f) {supervisor : Supervisor σ}
    (hc : ∀ entry ∈ supervisor.entries, entry.callbacks.Carried g) (s : σ) (w : ω) :
    supervisor.poll host' (g s) (f w) =
      (supervisor.poll host s w).map id (.map id (.map g f)) := by
  simp only [poll, pollAll_hom h hc, Prod.map_fst, Prod.map_snd, id]
  rfl

theorem launch_hom (h : Host.Hom host host' f) {callbacks : Callbacks σ}
    (hc : callbacks.Carried g) (executable : String) (args : List String) (options : LaunchOptions)
    (kill : Bool) (supervisor : Supervisor σ) (s : σ) (w : ω) :
    supervisor.launch host' executable args options callbacks kill (g s) (f w) =
      (supervisor.launch host executable args options callbacks kill s w).map id
        (.map id (.map g f)) := by
  simp only [launch, spawn_hom h]
  generalize spawn host executable args options w = r
  obtain ⟨cause | child, w'⟩ := r
  · rfl
  · simp only [Prod.map_apply, id, register, Entry.launched_hom h hc]
    rfl

/-- A round of a wait is carried over. -/
theorem waitRound_hom (h : Host.Hom host host' f) (interval : Nat) (deadline : Option Nat)
    (state : Supervisor σ × σ × ω) :
    waitRound host' interval deadline (state.map id (.map id f)) =
      (waitRound host interval deadline state).map (.map id (.map id f))
        (.map id (.map id (.map id f))) := by
  obtain ⟨supervisor, s, w⟩ := state
  have hcarried : ∀ entry ∈ supervisor.entries, entry.callbacks.Carried id :=
    fun entry _ => entry.callbacks.carried_id
  have hpoll := poll_hom h hcarried s w
  rw [id] at hpoll
  simp only [waitRound, Prod.map_apply, id]
  rw [hpoll]
  generalize supervisor.poll host s w = r
  obtain ⟨left, supervisor, s, w⟩ := r
  cases left with
  | false => rfl
  | true =>
    cases deadline with
    | none =>
      simp only [Prod.map_apply, id, h.sleep]
      rfl
    | some deadline =>
      simp only [Prod.map_apply, id, h.sleep, h.now, Prod.map_fst, Prod.map_snd]
      split <;> rfl

/-- A wait is carried over. -/
theorem wait_hom (h : Host.Hom host host' f) (fuel interval : Nat) (maxWait : Option Nat)
    (supervisor : Supervisor σ) (s : σ) (w : ω) :
    supervisor.wait host' fuel interval maxWait s (f w) =
      (supervisor.wait host fuel interval maxWait s w).map id (.map id (.map id f)) := by
  have hdeadline : waitDeadline host' maxWait (f w) =
      (waitDeadline host maxWait w).map id f := by
    cases maxWait with
    | none => rfl
    | some maxWait =>
      simp only [waitDeadline, h.now]
      rfl
  simp only [wait, hdeadline]
  have hloop := iterate_map (waitRound_hom h interval (waitDeadline host maxWait w).1) fuel
    (supervisor, s, (waitDeadline host maxWait w).2)
  simp only [Prod.map_apply, id, Prod.map_fst, Prod.map_snd] at hloop ⊢
  rw [hloop]
  generalize iterate _ fuel (supervisor, s, (waitDeadline host maxWait w).2) = r
  cases r <;> rfl

theorem signalAll_hom (h : Host.Hom host host' f) (signal : Signal) (supervisor : Supervisor σ)
    (w : ω) : supervisor.signalAll host' signal (f w) = f (supervisor.signalAll host signal w) := by
  obtain ⟨entries⟩ := supervisor
  rw [signalAll, signalAll]
  induction entries generalizing w with
  | nil => rfl
  | cons entry rest ih =>
    rw [signalEach, signalEach, Child.signal_hom h]
    exact ih _

theorem release_hom (h : Host.Hom host host' f) (supervisor : Supervisor σ) (w : ω) :
    supervisor.release host' (f w) = f (supervisor.release host w) := by
  have hclose (pipes : List Descriptor) (w : ω) :
      pipes.foldl (fun w d => host'.close d w) (f w) =
        f (pipes.foldl (fun w d => host.close d w) w) := by
    induction pipes generalizing w with
    | nil => rfl
    | cons d rest ih =>
      rw [List.foldl_cons, List.foldl_cons, h.close]
      exact ih _
  obtain ⟨entries⟩ := supervisor
  rw [release, release]
  induction entries generalizing w with
  | nil => rfl
  | cons entry rest ih =>
    rw [List.foldl_cons, List.foldl_cons, hclose]
    exact ih _

/-- A log changes nothing about a launch. -/
theorem launch_logged (host : Host ω) (executable : String) (args : List String)
    (options : LaunchOptions) (callbacks : Callbacks σ) (kill : Bool) (supervisor : Supervisor σ)
    (s : σ) (w : ω × Log) :
    supervisor.launch host executable args options callbacks kill s w.1 =
      (supervisor.launch host.logged executable args options callbacks kill s w).map id
        (.map id (.map id Prod.fst)) :=
  launch_hom host.forget callbacks.carried_id ..

end Supervisor

/-! ### Recorded callbacks -/

def Trace.before (first : Trace) (s : σ × Trace) : σ × Trace := (s.1, first ++ s.2)

theorem Script.noted_before {μ : Type} (n : Nat) (firing : Firing) (first trace : Trace)
    (script : Script (μ × σ)) :
    script.noted n firing (first ++ trace) =
      (script.noted n firing trace).onShared (Trace.before first) := by
  induction script with
  | done value => simp [noted, onShared, Script.bind, Trace.before]
  | write text close next ih => exact congrArg (Script.write text close) (funext ih)
  | closeStdin next ih => exact congrArg Script.closeStdin ih
  | signal s next ih => exact congrArg (Script.signal s) (funext ih)

/-- What recorded callbacks do does not depend on what was written down before. -/
theorem Callbacks.carried_recorded (n : Nat) (callbacks : Callbacks σ) (first : Trace) :
    (callbacks.recorded n).Carried (Trace.before first) := by
  refine ⟨?_, ?_, ?_⟩
  · rintro _ ⟨⟩ occasion memory ⟨s, trace⟩
    exact Script.noted_before n _ first trace _
  · intro stream callback hcallback occasion text memory s
    cases stream <;> cases hcallback <;> exact Script.noted_before n _ first s.2 _
  · rintro _ ⟨⟩ occasion status memory ⟨s, trace⟩
    simp [Trace.before]

theorem Callbacks.carried_recordedOn (n : Nat) (callbacks : Callbacks σ) (first : Trace) :
    (callbacks.recordedOn n).Carried (Trace.before first) := by
  have h := callbacks.carried_recorded n first
  refine ⟨?_, ?_, h.onExit⟩
  · rintro _ ⟨⟩
  · intro stream
    cases stream
    · exact h.onOutput .stdout
    · exact h.onOutput .stderr

end Chaperone
