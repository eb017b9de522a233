import Chaperone.Proofs.Supervisor.Listener
import Chaperone.Supervisor.Basic
import Mathlib.Data.List.Forall2

/-!
# Supervisors that go alike

A supervisor never looks at what its callbacks share; it only passes it on.  So two supervisors
whose callbacks ask the same of their children go alike on one machine, whatever else these
callbacks do.  A `Likeness` says which callbacks and which shared states belong together, and that
running the callbacks keeps it so.

* `Script.alike_run`: scripts that ask for the same reach the same child and the same machine.
* `Likeness.poll`, `Likeness.wait`, `Likeness.launch`: so does all that a supervisor does.
-/

namespace Chaperone

variable {σ σ' ω : Type}

inductive Script.Alike {α β : Type} (R : α → β → Prop) : Script α → Script β → Prop where
  | done {a : α} {b : β} (h : R a b) : Alike R (.done a) (.done b)
  | write {text : String} {close : Bool} {next : Except WriteError Unit → Script α}
      {next' : Except WriteError Unit → Script β}
      (h : ∀ result, Alike R (next result) (next' result)) :
      Alike R (.write text close next) (.write text close next')
  | closeStdin {next : Script α} {next' : Script β} (h : Alike R next next') :
      Alike R (.closeStdin next) (.closeStdin next')
  | signal {s : Signal} {next : Except TerminateError Unit → Script α}
      {next' : Except TerminateError Unit → Script β}
      (h : ∀ result, Alike R (next result) (next' result)) :
      Alike R (.signal s next) (.signal s next')

theorem Script.alike_run {α β : Type} {R : α → β → Prop} {script : Script α} {script' : Script β}
    (h : Script.Alike R script script') (host : Host ω) (child : Child) (w : ω) :
    R (script.run host child w).1 (script'.run host child w).1 ∧
      (script.run host child w).2 = (script'.run host child w).2 := by
  induction h generalizing child w with
  | done h => exact ⟨h, rfl⟩
  | write _ ih => exact ih _ _ _
  | closeStdin _ ih => exact ih _ _
  | signal _ ih => exact ih _ _ _

theorem Script.Alike.imp {α β : Type} {R S : α → β → Prop} {script : Script α} {script' : Script β}
    (h : Script.Alike R script script') (hRS : ∀ a b, R a b → S a b) :
    Script.Alike S script script' := by
  induction h with
  | done h => exact .done (hRS _ _ h)
  | write _ ih => exact .write ih
  | closeStdin _ ih => exact .closeStdin ih
  | signal _ ih => exact .signal ih

theorem Script.Alike.bind {α β γ : Type} {R : β → γ → Prop} (script : Script α)
    {f : α → Script β} {f' : α → Script γ} (h : ∀ a, Script.Alike R (f a) (f' a)) :
    Script.Alike R (script.bind f) (script.bind f') := by
  induction script with
  | done a => exact h a
  | write text close next ih => exact .write ih
  | closeStdin next ih => exact .closeStdin ih
  | signal s next ih => exact .signal ih

/-- Scripts that ask for the same may be followed by scripts that ask for the same. -/
theorem Script.Alike.then {α α' β β' : Type} {R : α → α' → Prop} {S : β → β' → Prop}
    {script : Script α} {script' : Script α'} (h : Script.Alike R script script')
    {f : α → Script β} {f' : α' → Script β'}
    (hf : ∀ a a', R a a' → Script.Alike S (f a) (f' a')) :
    Script.Alike S (script.bind f) (script'.bind f') := by
  induction h with
  | done h => exact hf _ _ h
  | write _ ih => exact .write ih
  | closeStdin _ ih => exact .closeStdin ih
  | signal _ ih => exact .signal ih

/-- Which callbacks and which shared states of two supervisors belong together.  What runs keeps
it so, also if it remembers something. -/
structure Likeness (σ σ' : Type) : Type 1 where
  Calls : Callbacks σ → Callbacks σ' → Prop
  Shared : σ → σ' → Prop
  onStarted : ∀ {c c'}, Calls c c' → (c.onStarted = none ∧ c'.onStarted = none) ∨
    ∃ f f', c.onStarted = some f ∧ c'.onStarted = some f' ∧ ∀ occasion s s', Shared s s' →
      Script.Alike (fun r r' => Calls { c.remember r.1 with onStarted := none }
          { c'.remember r'.1 with onStarted := none } ∧ Shared r.2 r'.2)
        (f occasion c.memory s) (f' occasion c'.memory s')
  onOutput : ∀ {c c'}, Calls c c' → ∀ stream,
    (c.onOutput stream = none ∧ c'.onOutput stream = none) ∨
    ∃ f f', c.onOutput stream = some f ∧ c'.onOutput stream = some f' ∧
      ∀ occasion text s s', Shared s s' →
        Script.Alike (fun r r' => Calls (c.remember r.1) (c'.remember r'.1) ∧ Shared r.2 r'.2)
          (f occasion text c.memory s) (f' occasion text c'.memory s')
  onExit : ∀ {c c'}, Calls c c' → (c.onExit = none ∧ c'.onExit = none) ∨
    ∃ f f', c.onExit = some f ∧ c'.onExit = some f' ∧ ∀ occasion status s s', Shared s s' →
      Shared (f occasion status c.memory s) (f' occasion status c'.memory s')

namespace Likeness

variable (like : Likeness σ σ')

structure Entries (entry : Entry σ) (entry' : Entry σ') : Prop where
  child : entry.child = entry'.child
  calls : like.Calls entry.callbacks entry'.callbacks
  decoder : entry.decoder = entry'.decoder
  killOnInputFailure : entry.killOnInputFailure = entry'.killOnInputFailure
  finished : entry.finished = entry'.finished

structure Moments (m : Entry σ × σ × ω) (m' : Entry σ' × σ' × ω) : Prop where
  entry : like.Entries m.1 m'.1
  shared : like.Shared m.2.1 m'.2.1
  machine : m.2.2 = m'.2.2

variable {like} {entry : Entry σ} {entry' : Entry σ'} {s : σ} {s' : σ'} {callbacks : Callbacks σ}
  {callbacks' : Callbacks σ'}

theorem Entries.withDecoder (h : like.Entries entry entry') (d : Text.Utf8.Decoder)
    (stream : OutputStream) :
    like.Entries (entry.withDecoder d stream) (entry'.withDecoder d stream) := by
  obtain ⟨hchild, hcalls, hdecoder, hkill, hfinished⟩ := h
  have hstdout : entry.stdoutDecoder = entry'.stdoutDecoder := congrFun hdecoder .stdout
  have hstderr : entry.stderrDecoder = entry'.stderrDecoder := congrFun hdecoder .stderr
  cases stream
  · refine ⟨hchild, hcalls, funext fun other => ?_, hkill, hfinished⟩
    cases other
    · rfl
    · exact hstderr
  · refine ⟨hchild, hcalls, funext fun other => ?_, hkill, hfinished⟩
    cases other
    · exact hstdout
    · rfl

theorem Entries.withChild (h : like.Entries entry entry') (child : Child) :
    like.Entries { entry with child } { entry' with child } :=
  ⟨rfl, h.calls, funext fun stream => congrFun h.decoder stream, h.killOnInputFailure, h.finished⟩

theorem Entries.occasion (h : like.Entries entry entry') (host : Host ω) (w : ω) :
    entry.occasion host w = entry'.occasion host w := by
  rw [Entry.occasion, Entry.occasion, h.child]

/-! ### One child -/

theorem emit (h : like.Entries entry entry') (hs : like.Shared s s') (host : Host ω)
    (stream : OutputStream) (text : String) (w : ω) :
    like.Moments (entry.emit host stream text s w) (entry'.emit host stream text s' w) := by
  simp only [Entry.emit]
  split
  · exact ⟨h, hs, rfl⟩
  · rcases like.onOutput h.calls stream with ⟨hnone, hnone'⟩ | ⟨f, f', hf, hf', hscripts⟩
    · rw [hnone, hnone']
      exact ⟨h, hs, rfl⟩
    · have halike := hscripts (entry.occasion host w) text s s' hs
      obtain ⟨⟨hcalls, hshared⟩, hreached⟩ := Script.alike_run halike host entry.child w
      rw [hf, hf']
      dsimp only
      rw [← h.occasion host w, ← h.child]
      exact ⟨⟨congrArg Prod.fst hreached, hcalls, h.decoder, h.killOnInputFailure, h.finished⟩,
        hshared, congrArg Prod.snd hreached⟩

theorem deliver (h : like.Entries entry entry') (hs : like.Shared s s') (host : Host ω)
    (stream : OutputStream) (w : ω) :
    like.Moments (entry.deliver host stream s w) (entry'.deliver host stream s' w) := by
  rw [Entry.deliver_eq, Entry.deliver_eq, ← h.child, ← h.decoder]
  exact emit ((h.withChild _).withDecoder _ _) hs host stream _ _

theorem deliverTail (h : like.Entries entry entry') (hs : like.Shared s s') (host : Host ω)
    (stream : OutputStream) (w : ω) :
    like.Moments (entry.deliverTail host stream s w) (entry'.deliverTail host stream s' w) := by
  simp only [Entry.deliverTail, ← h.decoder]
  exact emit (h.withDecoder _ _) hs host stream _ w

theorem flush (h : like.Entries entry entry') (hs : like.Shared s s') (host : Host ω) (w : ω) :
    like.Moments ((entry.flush host w).1, s, (entry.flush host w).2)
      ((entry'.flush host w).1, s', (entry'.flush host w).2) := by
  obtain ⟨child, callbacks, stdoutDecoder, stderrDecoder, kill, finished⟩ := entry
  obtain ⟨child', callbacks', stdoutDecoder', stderrDecoder', kill', finished'⟩ := entry'
  obtain rfl : child = child' := h.child
  obtain rfl : kill = kill' := h.killOnInputFailure
  simp only [Entry.flush]
  split
  · generalize child.flushStdin host w = r
    obtain ⟨_ | _, flushed, w'⟩ := r
    · dsimp only
      split <;> exact ⟨h.withChild _, hs, rfl⟩
    · exact ⟨h.withChild _, hs, rfl⟩
  · exact ⟨h, hs, rfl⟩

/-- What goes alike may be followed by what goes alike. -/
theorem Moments.then {m : Entry σ × σ × ω} {m' : Entry σ' × σ' × ω} (h : like.Moments m m')
    {f : Entry σ → σ → ω → Entry σ × σ × ω} {f' : Entry σ' → σ' → ω → Entry σ' × σ' × ω}
    (hf : ∀ {entry entry' s s'}, like.Entries entry entry' → like.Shared s s' → ∀ w,
      like.Moments (f entry s w) (f' entry' s' w)) :
    like.Moments (f m.1 m.2.1 m.2.2) (f' m'.1 m'.2.1 m'.2.2) := by
  rw [← h.machine]
  exact hf h.entry h.shared m.2.2

theorem exchange (h : like.Entries entry entry') (hs : like.Shared s s') (host : Host ω) (w : ω) :
    like.Moments (entry.exchange host s w) (entry'.exchange host s' w) :=
  ((flush h hs host w).then fun h hs => deliver h hs host .stdout).then
    fun h hs => deliver h hs host .stderr

theorem deliverRest (h : like.Entries entry entry') (hs : like.Shared s s') (host : Host ω)
    (w : ω) : like.Moments (entry.deliverRest host s w) (entry'.deliverRest host s' w) :=
  (((deliver h hs host .stdout w).then fun h hs => deliver h hs host .stderr).then
    fun h hs => deliverTail h hs host .stdout).then fun h hs => deliverTail h hs host .stderr

/-- Two entries after a look: as long as they are not finished they belong together. -/
structure Looked (like : Likeness σ σ') (m : Entry σ × σ × ω) (m' : Entry σ' × σ' × ω) : Prop where
  entry : m.1.finished = false → like.Entries m.1 m'.1
  child : m.1.child = m'.1.child
  finished : m.1.finished = m'.1.finished
  shared : like.Shared m.2.1 m'.2.1
  machine : m.2.2 = m'.2.2

theorem conclude (h : like.Entries entry entry') (hs : like.Shared s s') (host : Host ω)
    (status : ExitStatus) (w : ω) :
    like.Looked (entry.conclude host status s w) (entry'.conclude host status s' w) := by
  simp only [Entry.conclude, Callbacks.takeExit]
  refine ⟨nofun, h.child, rfl, ?_, rfl⟩
  rcases like.onExit h.calls with ⟨hnone, hnone'⟩ | ⟨f, f', hf, hf', hexit⟩
  · rw [hnone, hnone']
    exact hs
  · rw [hf, hf', h.occasion host w]
    exact hexit _ _ _ _ hs

theorem poll (h : like.Entries entry entry') (hs : like.Shared s s') (host : Host ω) (w : ω) :
    like.Looked (entry.poll host s w) (entry'.poll host s' w) := by
  have hexchange := exchange h hs host w
  simp only [Entry.poll]
  generalize entry.exchange host s w = m at hexchange
  generalize entry'.exchange host s' w = m' at hexchange
  obtain ⟨hentry, hshared, hmachine⟩ := hexchange
  rw [← hmachine, ← hentry.child]
  generalize m.1.child.tryWait host m.2.2 = r
  obtain ⟨_ | _ | status, child, w'⟩ := r
  · exact ⟨fun _ => hentry.withChild _, rfl, hentry.finished, hshared, rfl⟩
  · exact ⟨fun _ => hentry.withChild _, rfl, hentry.finished, hshared, rfl⟩
  · have hrest := deliverRest (hentry.withChild child) hshared host w'
    have hconclude := conclude hrest.entry hrest.shared host status
    simp only [Entry.finish]
    rw [← hrest.machine]
    exact hconclude _

/-! ### The registry -/

variable (like) in
def Supervisors (supervisor : Supervisor σ) (supervisor' : Supervisor σ') : Prop :=
  List.Forall₂ like.Entries supervisor.entries supervisor'.entries

variable (like) in
structure States (state : Supervisor σ × σ × ω) (state' : Supervisor σ' × σ' × ω) : Prop where
  supervisor : like.Supervisors state.1 state'.1
  shared : like.Shared state.2.1 state'.2.1
  machine : state.2.2 = state'.2.2

theorem pollAll {entries : List (Entry σ)} {entries' : List (Entry σ')}
    (h : List.Forall₂ like.Entries entries entries') (hs : like.Shared s s') (host : Host ω)
    (w : ω) :
    let r := Supervisor.pollAll host entries s w
    let r' := Supervisor.pollAll host entries' s' w
    List.Forall₂ like.Entries (r.1.filter fun entry => !entry.finished)
        (r'.1.filter fun entry => !entry.finished) ∧
      like.Shared r.2.1 r'.2.1 ∧ r.2.2 = r'.2.2 := by
  induction h generalizing s s' w with
  | nil => exact ⟨.nil, hs, rfl⟩
  | @cons entry entry' entries entries' hentry hrest ih =>
    obtain ⟨hleft, -, hfinished, hshared, hmachine⟩ := poll hentry hs host w
    simp only [Supervisor.pollAll]
    generalize entry.poll host s w = m at hleft hfinished hshared hmachine
    generalize entry'.poll host s' w = m' at hleft hfinished hshared hmachine
    obtain ⟨hentries, hshared', hmachine'⟩ := ih hshared m.2.2
    rw [← hmachine]
    refine ⟨?_, hshared', hmachine'⟩
    rw [List.filter_cons, List.filter_cons, ← hfinished]
    cases hf : m.1.finished with
    | true => exact hentries
    | false => exact .cons (hleft hf) hentries

theorem signalEach {entries : List (Entry σ)} {entries' : List (Entry σ')}
    (h : List.Forall₂ like.Entries entries entries') (host : Host ω) (signal : Signal) (w : ω) :
    Supervisor.signalEach host signal entries w = Supervisor.signalEach host signal entries' w := by
  induction h generalizing w with
  | nil => rfl
  | cons hentry _ ih => rw [Supervisor.signalEach, Supervisor.signalEach, hentry.child, ih]

section
variable {supervisor : Supervisor σ} {supervisor' : Supervisor σ'}

theorem look (h : like.Supervisors supervisor supervisor') (hs : like.Shared s s') (host : Host ω)
    (w : ω) :
    (supervisor.poll host s w).1 = (supervisor'.poll host s' w).1 ∧
      like.States (supervisor.poll host s w).2 (supervisor'.poll host s' w).2 := by
  obtain ⟨hentries, hshared, hmachine⟩ := pollAll h hs host w
  refine ⟨?_, hentries, hshared, hmachine⟩
  simp only [Supervisor.poll]
  generalize (Supervisor.pollAll host supervisor.entries s w).1.filter _ = left at hentries ⊢
  generalize (Supervisor.pollAll host supervisor'.entries s' w).1.filter _ = left' at hentries ⊢
  cases hentries <;> rfl

theorem launched (hc : like.Calls callbacks callbacks') (hs : like.Shared s s') (host : Host ω)
    (child : Child) (kill : Bool) (w : ω) :
    like.Moments (Entry.launched host child callbacks kill s w)
      (Entry.launched host child callbacks' kill s' w) := by
  simp only [Entry.launched]
  rcases like.onStarted hc with ⟨hnone, hnone'⟩ | ⟨f, f', hf, hf', hscripts⟩
  · rw [hnone, hnone']
    exact ⟨⟨rfl, hc, rfl, rfl, rfl⟩, hs, rfl⟩
  · have halike := hscripts ⟨child.pid, host.wallClock w⟩ s s' hs
    obtain ⟨⟨hcalls, hshared⟩, hreached⟩ := Script.alike_run halike host child w
    rw [hf, hf']
    exact ⟨⟨congrArg Prod.fst hreached, hcalls, rfl, rfl, rfl⟩, hshared,
      congrArg Prod.snd hreached⟩

theorem launch (h : like.Supervisors supervisor supervisor') (hs : like.Shared s s')
    (hc : like.Calls callbacks callbacks') (host : Host ω) (executable : String)
    (args : List String) (options : LaunchOptions) (kill : Bool) (w : ω) :
    let r := supervisor.launch host executable args options callbacks kill s w
    let r' := supervisor'.launch host executable args options callbacks' kill s' w
    r.1 = r'.1 ∧ like.States r.2 r'.2 := by
  simp only [Supervisor.launch]
  generalize spawn host executable args options w = spawned
  obtain ⟨cause | child, w'⟩ := spawned
  · exact ⟨rfl, h, hs, rfl⟩
  · obtain ⟨hentry, hshared, hmachine⟩ := launched hc hs host child kill w'
    exact ⟨rfl, List.rel_append h (.cons hentry .nil), hshared, hmachine⟩

/-! ### Waiting -/

/-- The rounds of two waits: both go on, or both end with the same answer. -/
theorem waitRound {state : Supervisor σ × σ × ω} {state' : Supervisor σ' × σ' × ω}
    (h : like.States state state') (host : Host ω) (interval : Nat) (deadline : Option Nat) :
    Sum.LiftRel like.States (fun a a' => a.1 = a'.1 ∧ like.States a.2 a'.2)
      (Supervisor.waitRound host interval deadline state)
      (Supervisor.waitRound host interval deadline state') := by
  obtain ⟨supervisor, s, w⟩ := state
  obtain ⟨supervisor', s', w'⟩ := state'
  obtain ⟨hsupervisor, hshared, rfl⟩ := h
  obtain ⟨hleft, hstates⟩ := look hsupervisor hshared host w
  simp only [Supervisor.waitRound]
  generalize supervisor.poll host s w = r at hleft hstates ⊢
  generalize supervisor'.poll host s' w = r' at hleft hstates ⊢
  obtain ⟨left, supervisor, s, w⟩ := r
  obtain ⟨left', supervisor', s', w'⟩ := r'
  obtain rfl : left = left' := hleft
  obtain ⟨hsupervisor, hshared, rfl⟩ := hstates
  cases left with
  | false => exact .inr ⟨rfl, hsupervisor, hshared, rfl⟩
  | true =>
    cases deadline with
    | none => exact .inl ⟨hsupervisor, hshared, rfl⟩
    | some deadline =>
      dsimp only
      split
      · exact .inr ⟨rfl, hsupervisor, hshared, rfl⟩
      · exact .inl ⟨hsupervisor, hshared, rfl⟩

theorem wait (h : like.Supervisors supervisor supervisor') (hs : like.Shared s s') (host : Host ω)
    (fuel interval : Nat) (maxWait : Option Nat) (w : ω) :
    let r := supervisor.wait host fuel interval maxWait s w
    let r' := supervisor'.wait host fuel interval maxWait s' w
    r.1 = r'.1 ∧ like.States r.2 r'.2 := by
  simp only [Supervisor.wait]
  generalize Supervisor.waitDeadline host maxWait w = read
  have hstart : like.States (supervisor, s, read.2) (supervisor', s', read.2) := ⟨h, hs, rfl⟩
  have hrounds := iterate_rel (fun _ _ hstates => waitRound hstates host interval read.1) fuel
    hstart
  generalize iterate _ fuel (supervisor, s, read.2) = r at hrounds ⊢
  generalize iterate _ fuel (supervisor', s', read.2) = r' at hrounds ⊢
  cases hrounds with
  | inl hstates => exact ⟨rfl, hstates⟩
  | inr hanswer => exact ⟨congrArg some hanswer.1, hanswer.2⟩

/-- Giving up registries of the same children releases the same pipes. -/
theorem release (h : like.Supervisors supervisor supervisor') (host : Host ω) (w : ω) :
    supervisor.release host w = supervisor'.release host w := by
  obtain ⟨entries⟩ := supervisor
  obtain ⟨entries'⟩ := supervisor'
  simp only [Supervisor.release, Supervisors] at h ⊢
  induction h generalizing w with
  | nil => rfl
  | cons hentry _ ih => rw [List.foldl_cons, List.foldl_cons, hentry.child, ih]

end

end Likeness

end Chaperone
