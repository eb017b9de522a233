import Mathlib
import Chaperone.Proofs.Child.Rest
import Chaperone.Proofs.Child.Start
import Chaperone.Proofs.Supervisor.Delivery
import Chaperone.Proofs.Supervisor.Recording
import Chaperone.Supervisor.Basic

/-!
# The life of one child

A supervisor looks at its children in the order of the registry, and a look at one of them reaches
the others only through the state that all callbacks share and through the machine.  So a child among others fares as a child that is alone, if between two looks the
shared state and the machine may become anything.  A `Life` is what such looks make of a supervisor
of one child, with what the callbacks of the child keep for themselves and the calls that were made.
Every child of every session leads one (`Session.leads_life`).

* `Life.Running`, `Life.Ended`: what holds of a life until its exit is handed over, and after it.
* `Life.stage_looks`: one of them holds after any number of looks at any moments.
* `Life.text_of_exited`: when the exit has been handed over, the text handed over for each stream
  is the text of all bytes that were read from it.
-/

namespace Chaperone

open Text.Utf8

variable {σ τ ω : Type}

/-- What looks have made of a supervisor of one child. -/
structure Life (σ τ : Type) : Type 1 where
  supervisor : Supervisor (σ × τ)
  /-- What the callbacks of the child keep for themselves. -/
  kept : τ
  /-- The calls that were made for the child. -/
  calls : Log

def Listener.IsPrivate (listener : Listener (σ × τ)) : Prop :=
  ∀ c s s' kept pieces, listener.Hears c (s, kept) pieces → listener.Hears c (s', kept) pieces

namespace Life

def launch (host : Host ω) (executable : String) (args : List String) (options : LaunchOptions)
    (callbacks : Callbacks (σ × τ)) (killOnInputFailure : Bool) (s : σ) (kept : τ) (w : ω) :
    Life σ τ :=
  let (_, supervisor, s, w) := Supervisor.new.launch host.logged executable args options callbacks
    killOnInputFailure (s, kept) (w, [])
  ⟨supervisor, s.2, w.2⟩

def launchWithInput (host : Host ω) (executable : String) (args : List String) (input : String)
    (options : LaunchOptions) (completed : RunResult → σ × τ → σ × τ) (s : σ) (kept : τ) (w : ω) :
    Life σ τ :=
  let (_, supervisor, s, w) := Supervisor.new.runProgramWithInput host.logged executable args input
    options completed (s, kept) (w, [])
  ⟨supervisor, s.2, w.2⟩

def look (host : Host ω) (life : Life σ τ) (moment : σ × ω) : Life σ τ :=
  let (_, supervisor, s, w) :=
    life.supervisor.poll host.logged (moment.1, life.kept) (moment.2, life.calls)
  ⟨supervisor, s.2, w.2⟩

def looks (host : Host ω) (life : Life σ τ) (moments : List (σ × ω)) : Life σ τ :=
  moments.foldl (look host) life

/-! ### The two stages of a life -/

variable (listener : Listener (σ × τ)) (out : OutputStream → Option Descriptor)

/-- A life whose exit has not been handed over after so many looks. -/
structure Running (count : Nat) (life : Life σ τ) : Prop where
  reported : reported life.calls = []
  silences : silences life.calls = count
  entry : ∃ entry s pieces, life.supervisor.entries = [entry] ∧ entry.finished = false ∧
    entry.child.status = none ∧ Stands listener out entry (s, life.kept) life.calls pieces

/-- A life whose exit has been handed over: all output came before it. -/
structure Ended (host : Host ω) (life : Life σ τ) : Prop where
  empty : life.supervisor.entries = []
  last : ∃ (status : ExitStatus) (m : Entry (σ × τ) × (σ × τ) × ω × Log) (all : List Piece),
    Chaperone.reported life.calls = [status] ∧
      life.kept = (m.1.conclude host.logged status m.2.1 m.2.2).2.1.2 ∧
      listener.Hears m.1.callbacks m.2.1 all ∧
      ∀ stream, heard stream all = lossy (received (out stream) life.calls)

variable {listener out}

theorem stage_look (host : Host ω) (hprivate : listener.IsPrivate) (hout : Apart out)
    {count : Nat} {life : Life σ τ}
    (h : life.Running listener out count ∨ life.Ended listener out host) (moment : σ × ω) :
    (life.look host moment).Running listener out (count + 1) ∨
      (life.look host moment).Ended listener out host := by
  obtain ⟨⟨entries⟩, kept, calls⟩ := life
  rcases h with ⟨hreported, hsilences, entry, s, pieces, hentries, hfinished, hstatus, hstands⟩ |
    ⟨hempty, hlast⟩
  · obtain rfl : entries = [entry] := hentries
    have hnow : Stands listener out entry (moment.1, kept) calls pieces :=
      ⟨hprivate _ _ _ _ _ hstands.hears, hstands.account⟩
    simp only [look, Supervisor.poll, Supervisor.pollAll]
    generalize hm : entry.poll host.logged (moment.1, kept) (moment.2, calls) = m
    obtain ⟨hreported', hsilences', hnone, -, hfin, more, hstands⟩ |
        ⟨status, last, all, hreported', rfl, hlast⟩ :=
      Stands.poll (w := (moment.2, calls)) hnow hout host hstatus hm
    · have hleft : m.1.finished = false := hfin.trans hfinished
      refine Or.inl ⟨hreported'.trans hreported, hsilences'.trans (congrArg Nat.succ hsilences),
        m.1, m.2.1.1, _, ?_, hleft, hnone, hstands⟩
      simp [hleft]
    · rw [show reported calls = [] from hreported] at hreported'
      exact Or.inr ⟨rfl, status, last, all, hreported', rfl, hlast⟩
  · obtain rfl : entries = [] := hempty
    exact Or.inr ⟨rfl, hlast⟩

theorem stage_looks (host : Host ω) (hprivate : listener.IsPrivate) (hout : Apart out)
    {count : Nat} {life : Life σ τ}
    (h : life.Running listener out count ∨ life.Ended listener out host)
    (moments : List (σ × ω)) :
    (life.looks host moments).Running listener out (count + moments.length) ∨
      (life.looks host moments).Ended listener out host := by
  induction moments generalizing count life with
  | nil => exact h
  | cons moment moments ih =>
    rw [List.length_cons, Nat.add_comm moments.length, ← Nat.add_assoc]
    exact ih (stage_look host hprivate hout h moment)

/-- A life begins with nothing handed over, if its callbacks are ready once the first has run. -/
theorem running_launch (listener : Listener (σ × τ)) {host : Host ω} {executable : String}
    {args : List String} {options : LaunchOptions} {child : Child} {w : ω} {w' : ω × Log}
    (hspawn : spawn host.logged executable args options (w, []) = (.ok child, w'))
    {callbacks : Callbacks (σ × τ)} {kill : Bool} {s : σ} {kept : τ}
    (hready : ∀ m, Entry.launched host.logged child callbacks kill (s, kept) w' = m →
      listener.Hears m.1.callbacks m.2.1 []) :
    (launch host executable args options callbacks kill s kept w).Running listener child.pipe
      0 := by
  simp only [launch, Supervisor.launch, Supervisor.register, hspawn]
  generalize hm : Entry.launched host.logged child callbacks kill (s, kept) w' = m at hready
  obtain ⟨hchild, htells, hfinished, hdecoder⟩ :=
    Entry.launched_spec host child callbacks kill (s, kept) w' hm
  have hasked : asked m.2.2.2 = asked [] :=
    (htells.asked_eq fun _ hcall => hcall.question?).trans (asked_of_spawn hspawn)
  refine ⟨reported_of_asked hasked, silences_of_asked hasked, m.1, m.2.1.1, [], rfl, hfinished, ?_,
    hready m rfl, fun _ => [], (Flow.spawn hspawn).tells hchild htells, ?_⟩
  · exact (Child.status_of_withoutInput hchild).trans (status_of_spawn hspawn)
  · intro stream
    rw [hdecoder]
    exact Decoder.hasRead_new

end Life

/-! ### Complete output -/

def outputs (fired : List Firing) : List Piece :=
  fired.filterMap fun
    | .output p => some p
    | _ => none

theorem outputs_story (pieces : List Piece) (status : ExitStatus) :
    outputs (.started :: pieces.map .output ++ [.exited status]) = pieces := by
  simp [outputs, List.filterMap_map]

theorem Listener.isPrivate_recorder (n : Nat) (before : Trace) :
    (Listener.recorder n before : Listener (σ × Trace)).IsPrivate :=
  fun _ _ _ _ _ h => h

namespace Life

/-- A life with recorded callbacks is running or has ended, after any looks. -/
theorem stage_recorded (host : Host ω) {executable : String} {args : List String}
    {options : LaunchOptions} {child : Child} {w : ω} {w' : ω × Log}
    (hspawn : spawn host.logged executable args options (w, []) = (.ok child, w'))
    (n : Nat) (callbacks : Callbacks σ) (kill : Bool) (s : σ) (moments : List (σ × ω)) :
    let last := (launch host executable args options (callbacks.recorded n) kill s [] w).looks host
      moments
    last.Running (.recorder n [(n, .started)]) child.pipe moments.length ∨
      last.Ended (.recorder n [(n, .started)]) child.pipe host := by
  have hrunning : (launch host executable args options (callbacks.recorded n) kill s [] w).Running
      (.recorder n [(n, .started)]) child.pipe 0 :=
    running_launch _ hspawn fun _ hm =>
      Entry.launched_recorded host child n callbacks kill s [] w' hm
  have hstage := stage_looks host (Listener.isPrivate_recorder n _) (apart_of_spawn hspawn)
    (Or.inl hrunning) moments
  rwa [Nat.zero_add] at hstage

/-- Only a life that has ended has handed over an exit, and with it all output. -/
theorem heard_of_stage {host : Host ω} {n count : Nat} {out : OutputStream → Option Descriptor}
    {life : Life σ Trace}
    (h : life.Running (.recorder n [(n, .started)]) out count ∨
      life.Ended (.recorder n [(n, .started)]) out host)
    {status : ExitStatus} (hexit : .exited status ∈ firings n life.kept) (stream : OutputStream) :
    heard stream (outputs (firings n life.kept)) = lossy (received (out stream) life.calls) := by
  rcases h with hlife | hlife
  · -- Until the exit is handed over there is only output after the start.
    obtain ⟨-, -, entry, s', pieces, -, -, -, ⟨-, htrace⟩, -⟩ := hlife
    dsimp only at htrace
    rw [htrace] at hexit
    simp [firings] at hexit
  · obtain ⟨-, status', m, all, -, hkept, ⟨⟨c, hc⟩, htrace⟩, hheard⟩ := hlife
    have hlast : life.kept = m.2.1.2 ++ [(n, .exited status')] := by
      rw [hkept]
      simp only [Entry.conclude, hc]
      rfl
    have hfired : firings n life.kept = .started :: all.map .output ++ [.exited status'] := by
      rw [hlast, htrace, firings_append, firings_append, firings_self]
      simp [firings]
    rw [hfired, outputs_story]
    exact hheard stream

/-- **Once the exit has been handed over, the text that was handed over for a stream is the text of
all bytes that were read from it.** -/
theorem text_of_exited (host : Host ω) {executable : String} {args : List String}
    {options : LaunchOptions} {child : Child} {w : ω} {w' : ω × Log}
    (hspawn : spawn host.logged executable args options (w, []) = (.ok child, w'))
    {n : Nat} {callbacks : Callbacks σ} {kill : Bool} {s : σ} {moments : List (σ × ω)}
    {last : Life σ Trace}
    (hlast : (launch host executable args options (callbacks.recorded n) kill s [] w).looks host
      moments = last)
    {status : ExitStatus} (hexit : .exited status ∈ firings n last.kept) (stream : OutputStream) :
    heard stream (outputs (firings n last.kept)) =
      lossy (received (child.pipe stream) last.calls) := by
  have hstage := stage_recorded host hspawn n callbacks kill s moments
  rw [hlast] at hstage
  exact heard_of_stage hstage hexit stream

/-- One character of two bytes is handed over in one piece. -/
theorem text_of_exited_echo :
    ∃ last : Life Unit Trace,
      (launch Host.ended "/bin/echo" [] {} (Callbacks.none.recorded 0) false () [] []).looks
          Host.ended [((), [0xC3, 0xA9])] = last ∧
        heard .stdout (outputs (firings 0 last.kept)) = lossy (received (some 1) last.calls) := by
  let child : Child :=
    { pid := 1, stdin := none, stdout := some 1, stderr := some 2, leadsGroup := true }
  have hspawn : (spawn Host.ended.logged "/bin/echo" [] {} ([], [])).1 = .ok child := by cbv
  have hfired : firings 0 ((launch Host.ended "/bin/echo" [] {} (Callbacks.none.recorded 0) false ()
      [] []).looks Host.ended [((), [0xC3, 0xA9])]).kept =
        [.started, .output (.stdout, "é"), .exited (.exited 0)] := by cbv
  have hexit : .exited (.exited 0) ∈ firings 0 ((launch Host.ended "/bin/echo" [] {}
      (Callbacks.none.recorded 0) false () [] []).looks Host.ended [((), [0xC3, 0xA9])]).kept := by
    rw [hfired]
    simp
  have hspawned : spawn Host.ended.logged "/bin/echo" [] {} ([], []) = (.ok child, _) :=
    Prod.ext hspawn rfl
  exact ⟨_, rfl, text_of_exited Host.ended hspawned rfl hexit .stdout⟩

end Life

end Chaperone
