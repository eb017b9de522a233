import Chaperone.Proofs.Child.Sound
import Chaperone.Proofs.Supervisor.Look
import Chaperone.Proofs.Supervisor.Session

/-!
# The children of a registry

A child comes into the registry when it was just started.  There its fields fit together and its
output streams do not share a pipe (`Entry.Fit`).  Callbacks and looks only make a later child of
it (`Entry.evolves_poll`), so this holds of every child in the registry, whatever a caller does
(`Session.fit_run`).
-/

namespace Chaperone

variable {σ ω : Type}

/-! ### Callbacks -/

theorem Script.evolves_run {α : Type} (host : Host ω) (script : Script α) (child : Child)
    (w : ω × Log) : Child.Evolves child (script.run host.logged child w).2.1 := by
  induction script generalizing child w with
  | done value => exact .refl child
  | write text close next ih => exact (Child.Evolves.write host child _ close w).trans (ih _ _ _)
  | closeStdin next ih => exact (Child.Evolves.closeStdin host.logged child w).trans (ih _ _)
  | signal s next ih => exact ih _ child _

namespace Entry

variable (host : Host ω) (entry : Entry σ) (s : σ) (w : ω × Log)

theorem evolves_launched (child : Child) (callbacks : Callbacks σ) (kill : Bool) :
    Child.Evolves child (launched host.logged child callbacks kill s w).1.child := by
  simp only [launched]
  split
  · exact .refl child
  · exact Script.evolves_run host _ child w

theorem evolves_emit (stream : OutputStream) (text : String) :
    Child.Evolves entry.child (entry.emit host.logged stream text s w).1.child := by
  simp only [emit]
  split
  · exact .refl _
  · split
    · exact .refl _
    · exact Script.evolves_run host _ entry.child w

/-! ### One look -/

theorem evolves_deliver (stream : OutputStream) :
    Child.Evolves entry.child (entry.deliver host.logged stream s w).1.child := by
  rw [deliver_eq]
  have hread := Child.Evolves.readStream host.logged entry.child stream w
  generalize entry.child.readStream host.logged stream w = read at hread ⊢
  refine Child.Evolves.trans ?_ (evolves_emit host _ s read.2.2.2 stream _)
  rw [child_withDecoder]
  exact hread

theorem evolves_deliverTail (stream : OutputStream) :
    Child.Evolves entry.child (entry.deliverTail host.logged stream s w).1.child := by
  refine Child.Evolves.trans ?_ (evolves_emit host _ s w stream _)
  rw [child_withDecoder]
  exact .refl _

theorem evolves_flush : Child.Evolves entry.child (entry.flush host.logged w).1.child := by
  have hflush := Child.Evolves.flushStdin host entry.child w
  simp only [flush]
  split
  · generalize entry.child.flushStdin host.logged w = r at hflush ⊢
    obtain ⟨result, child, w'⟩ := r
    cases result with
    | ok => exact hflush
    | error cause =>
      dsimp only
      split <;> exact hflush
  · exact .refl _

/-- A look is made of steps that make a later child of a child. -/
theorem parts_evolves (host : Host ω) :
    Parts host.logged (fun m m' : Entry σ × σ × ω × Log =>
      Child.Evolves m.1.child m'.1.child) where
  trans h g := h.trans g
  flush entry _ w := entry.evolves_flush host w
  deliver entry s w stream := entry.evolves_deliver host s w stream
  deliverTail entry s w stream := entry.evolves_deliverTail host s w stream
  ask entry _ w := Child.Evolves.tryWait host.logged entry.child w
  conclude _ _ _ _ := .refl _

theorem evolves_poll : Child.Evolves entry.child (entry.poll host.logged s w).1.child :=
  (parts_evolves host).poll entry s w

/-! ### The registry -/

structure Fit (entry : Entry σ) : Prop where
  sound : entry.child.Sound
  apart : Apart entry.child.pipe

end Entry

/-- Streams that do not share a pipe do not come to share one when pipes are released. -/
theorem Child.Later.apart {child later : Child} (h : Later child later)
    (hout : Apart child.pipe) : Apart later.pipe := by
  intro d hstdout hstderr
  have hkept {stream : OutputStream} (hd : later.pipe stream = some d) :
      child.pipe stream = some d := by
    rcases h.pipe stream with hp | hp
    · cases hp.symm.trans hd
    · exact hp.symm.trans hd
  exact hout d (hkept hstdout) (hkept hstderr)

theorem Entry.Fit.evolves {entry later : Entry σ} (h : entry.Fit)
    (hlater : Child.Evolves entry.child later.child) : later.Fit :=
  have hevolved := hlater h.sound
  ⟨hevolved.1, hevolved.2.apart h.apart⟩

theorem Supervisor.fit_pollAll (host : Host ω) {entries : List (Entry σ)}
    (h : ∀ entry ∈ entries, entry.Fit) (s : σ) (w : ω × Log) :
    ∀ entry ∈ (pollAll host.logged entries s w).1, entry.Fit := by
  induction entries generalizing s w with
  | nil =>
    intro entry hentry
    cases hentry
  | cons first rest ih =>
    obtain ⟨hfirst, hrest⟩ := List.forall_mem_cons.mp h
    exact List.forall_mem_cons.mpr ⟨hfirst.evolves (first.evolves_poll host s w), ih hrest _ _⟩

namespace Session

variable {session : Session σ ω}

def Fit (session : Session σ ω) : Prop := ∀ entry ∈ session.supervisor.entries, entry.Fit

theorem fit_start (s : σ) (w : ω) : (start s w).Fit := by
  intro entry hentry
  cases hentry

theorem Fit.launch (h : session.Fit) (host : Host ω) (executable : String) (args : List String)
    (options : LaunchOptions) (callbacks : Callbacks σ) (kill : Bool) :
    (session.launch host executable args options callbacks kill).2.Fit := by
  simp only [Session.launch, Supervisor.launch]
  generalize hspawn : spawn host.logged executable args options session.machine = spawned
  obtain ⟨result, w⟩ := spawned
  cases result with
  | error cause => exact h
  | ok child =>
    intro entry hentry
    rcases List.mem_append.mp hentry with hentry | hentry
    · exact h entry hentry
    · obtain rfl := List.mem_singleton.mp hentry
      have hlaunched := Entry.evolves_launched host session.shared w child
        (callbacks.recorded session.launches) kill
      obtain ⟨hsound, hlater⟩ := hlaunched (.spawn hspawn)
      exact ⟨hsound, hlater.apart (apart_of_spawn hspawn)⟩

theorem Fit.poll (h : session.Fit) (host : Host ω) : (session.poll host).Fit := by
  intro entry hentry
  exact Supervisor.fit_pollAll host h session.shared session.machine entry
    (List.mem_of_mem_filter hentry)

theorem Fit.waitSteps (h : session.Fit) (host : Host ω) {steps : List (Action σ ω)}
    (hsteps : ∀ step ∈ steps, IsWaitStep step) : (session.run host steps).Fit := by
  induction steps generalizing session with
  | nil => exact h
  | cons step steps ih =>
    obtain ⟨hstep, hsteps⟩ := List.forall_mem_cons.mp hsteps
    have hact : (session.act host step).Fit := by
      rcases hstep with rfl | rfl | ⟨microseconds, rfl⟩
      · exact h.poll host
      · exact h
      · exact h
    exact ih hact hsteps

theorem Fit.act (h : session.Fit) (host : Host ω) (action : Action σ ω) :
    (session.act host action).Fit := by
  cases action with
  | launch executable args options callbacks kill => exact h.launch host _ _ _ _ _
  | poll => exact h.poll host
  | wait rounds interval maxWait =>
    obtain ⟨steps, hsteps, hwait⟩ := wait_steps host rounds interval maxWait session
    rw [hwait]
    exact h.waitSteps host hsteps
  | signalAll | sleep | clock | elsewhere => exact h

theorem Fit.run (h : session.Fit) (host : Host ω) (actions : List (Action σ ω)) :
    (session.run host actions).Fit := by
  induction actions generalizing session with
  | nil => exact h
  | cons action actions ih => exact ih (h.act host action)

/-- **Whatever a caller does, all children of the registry are as they should be.** -/
theorem fit_run (host : Host ω) (s : σ) (w : ω) (actions : List (Action σ ω)) :
    ((start s w).run host actions).Fit := (fit_start s w).run host actions

end Session

end Chaperone
