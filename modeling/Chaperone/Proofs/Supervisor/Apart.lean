import Chaperone.Proofs.Supervisor.InStep
import Chaperone.Proofs.Supervisor.Likeness
import Mathlib.Data.List.Nodup

/-!
# Callbacks that touch only their own child

While a callback runs it can reach no child but its own.  Callbacks of different children can meet
only in the state that all of them share.  Here this state has a part for each child, and callbacks
keep to their child if they see and change no more than its part (`Callbacks.KeepTo`).

Then a look at the child goes the same way whatever the other parts are, and leaves them as they
are (`Entry.KeepsTo.poll_twins`, `Entry.KeepsTo.poll`).
-/

namespace Chaperone

variable {σ τ ω ω' : Type}

/-! ### Callbacks of one child -/

/-- What comes of callbacks that touch only what belongs to the child `n`, from states that have the
same part of it: they remember the same and leave the same part, and the parts of the other children
are as they were in `s`. -/
structure Confined {μ : Type} (part : Nat → σ → τ) (n : Nat) (s : σ) (r r' : μ × σ) : Prop where
  memory : r.1 = r'.1
  own : part n r.2 = part n r'.2
  others : ∀ k ≠ n, part k r.2 = part k s

/-- Callbacks that touch only what belongs to the child `n`.  Of the state that all callbacks share
they see no more than the part of this child, and they change no more than that.  The first of them
runs at the launch and is left out here. -/
structure Callbacks.KeepTo (part : Nat → σ → τ) (n : Nat) (callbacks : Callbacks σ) : Prop where
  onOutput : ∀ stream callback, callbacks.onOutput stream = some callback →
    ∀ occasion text memory s s', part n s = part n s' →
      Script.Alike (Confined part n s) (callback occasion text memory s)
        (callback occasion text memory s')
  onExit : ∀ callback, callbacks.onExit = some callback →
    ∀ occasion status memory s s', part n s = part n s' →
      Confined part n s (memory, callback occasion status memory s)
        (memory, callback occasion status memory s')

def share (part : Nat → σ → τ) (n : Nat) (s : σ × Trace) : τ × List Firing :=
  (part n s.1, firings n s.2)

/-- What a callback writes down belongs to its child. -/
theorem Confined.note {μ : Type} {part : Nat → σ → τ} {n : Nat} {s s' : σ × Trace} {r r' : μ × σ}
    (h : Confined part n s.1 r r') (hs : share part n s = share part n s') (firing : Firing) :
    Confined (share part) n s (r.1, r.2, s.2 ++ [(n, firing)])
      (r'.1, r'.2, s'.2 ++ [(n, firing)]) where
  memory := h.memory
  own := by
    obtain ⟨-, htrace⟩ := Prod.mk.inj hs
    simp only [share, h.own, firings_append, htrace]
  others k hk := by
    have hnone : firings k [(n, firing)] = [] := firings_of_ne hk.symm [firing]
    rw [share, h.others k hk, firings_append, hnone, List.append_nil]
    rfl

namespace Callbacks.KeepTo

variable {part : Nat → σ → τ} {n : Nat} {callbacks : Callbacks σ}

theorem remember (h : callbacks.KeepTo part n) (memory : callbacks.Memory) :
    (callbacks.remember memory).KeepTo part n :=
  ⟨fun stream => by cases stream; exacts [h.onOutput .stdout, h.onOutput .stderr], h.onExit⟩

/-- A callback that is missing touches nothing. -/
theorem onOutput_getD (h : callbacks.KeepTo part n) (stream : OutputStream) (occasion : Occasion)
    (text : String) (memory : callbacks.Memory) {s s' : σ} (hs : part n s = part n s') :
    let run := (callbacks.onOutput stream).getD (fun _ _ memory s => .done (memory, s)) occasion
      text memory
    Script.Alike (Confined part n s) (run s) (run s') := by
  cases hc : callbacks.onOutput stream with
  | none => exact .done ⟨rfl, hs, fun _ _ => rfl⟩
  | some callback => exact h.onOutput stream callback hc occasion text memory s s' hs

theorem onExit_getD (h : callbacks.KeepTo part n) (occasion : Occasion) (status : ExitStatus)
    (memory : callbacks.Memory) {s s' : σ} (hs : part n s = part n s') :
    let run := callbacks.onExit.getD (fun _ _ _ s => s) occasion status memory
    Confined part n s (memory, run s) (memory, run s') := by
  cases hc : callbacks.onExit with
  | none => exact ⟨rfl, hs, fun _ _ => rfl⟩
  | some callback => exact h.onExit callback hc occasion status memory s s' hs

/-- Callbacks that are recorded keep to their child if they do so otherwise. -/
theorem recordedOn (h : callbacks.KeepTo part n) :
    (callbacks.recordedOn n).KeepTo (share part) n := by
  refine ⟨?_, ?_⟩
  · intro stream callback hcallback occasion text memory s s' hs
    have halike := h.onOutput_getD stream occasion text memory (congrArg Prod.fst hs)
    have hnoted : Script.Alike (Confined (share part) n s)
        (Script.noted n (.output (stream, text)) s.2 _)
        (Script.noted n (.output (stream, text)) s'.2 _) :=
      halike.then fun r r' hr => .done (hr.note hs _)
    cases stream <;> cases hcallback <;> exact hnoted
  · rintro _ ⟨⟩ occasion status memory s s' hs
    exact (h.onExit_getD occasion status memory (congrArg Prod.fst hs)).note hs _

end Callbacks.KeepTo

/-! ### One child -/

theorem Likeness.Entries.eq {like : Likeness σ σ} {entry entry' : Entry σ}
    (h : like.Entries entry entry') (hcallbacks : entry.callbacks = entry'.callbacks) :
    entry = entry' := by
  obtain ⟨child, callbacks, stdoutDecoder, stderrDecoder, kill, finished⟩ := entry
  obtain ⟨hchild, -, hdecoder, hkill, hfinished⟩ := h
  obtain rfl : stdoutDecoder = entry'.stdoutDecoder := congrFun hdecoder .stdout
  obtain rfl : stderrDecoder = entry'.stderrDecoder := congrFun hdecoder .stderr
  subst hchild hcallbacks hkill hfinished
  rfl

structure Entry.KeepsTo (part : Nat → σ → τ) (n : Nat) (entry : Entry σ) : Prop where
  callbacks : entry.callbacks.KeepTo part n
  onStarted : entry.callbacks.onStarted = none

def Likeness.confined (part : Nat → σ → τ) (n : Nat) (before : σ) : Likeness σ σ where
  Calls c c' := c = c' ∧ c.KeepTo part n ∧ c.onStarted = none
  Shared s s' := part n s = part n s' ∧ ∀ k ≠ n, part k s = part k before
  onStarted := by
    rintro c _ ⟨rfl, -, hnone⟩
    exact Or.inl ⟨hnone, hnone⟩
  onOutput := by
    rintro c _ ⟨rfl, hkeep, hnone⟩ stream
    cases hc : c.onOutput stream with
    | none => exact Or.inl ⟨rfl, rfl⟩
    | some callback =>
      refine Or.inr ⟨callback, callback, rfl, rfl, ?_⟩
      intro occasion text s s' ⟨hs, hothers⟩
      refine (hkeep.onOutput stream callback hc occasion text c.memory s s' hs).imp ?_
      intro r r' hr
      refine ⟨⟨congrArg _ hr.memory, hkeep.remember _, hnone⟩, hr.own, ?_⟩
      intro k hk
      exact (hr.others k hk).trans (hothers k hk)
  onExit := by
    rintro c _ ⟨rfl, hkeep, -⟩
    cases hc : c.onExit with
    | none => exact Or.inl ⟨rfl, rfl⟩
    | some callback =>
      refine Or.inr ⟨callback, callback, rfl, rfl, ?_⟩
      intro occasion status s s' ⟨hs, hothers⟩
      have hr := hkeep.onExit callback hc occasion status c.memory s s' hs
      exact ⟨hr.own, fun k hk => (hr.others k hk).trans (hothers k hk)⟩

/-- What two looks at the child `n` leave is the same for it: the child, what belongs to it, and as
long as it has not ended also its callbacks. -/
structure Entry.Twins (part : Nat → σ → τ) (n : Nat) (m : Entry σ × σ × ω) (m' : Entry σ × σ × ω') :
    Prop where
  entry : m.1.finished = false → m'.1 = m.1
  child : m'.1.child = m.1.child
  finished : m'.1.finished = m.1.finished
  own : part n m.2.1 = part n m'.2.1

namespace Entry.KeepsTo

variable {part : Nat → σ → τ} {n : Nat} {entry : Entry σ}

theorem looked (h : entry.KeepsTo part n) {s s' : σ} (hs : part n s = part n s') (host : Host ω)
    (w : ω) :
    (Likeness.confined part n s).Looked (entry.poll host s w) (entry.poll host s' w) := by
  have hsame : (Likeness.confined part n s).Entries entry entry :=
    ⟨rfl, ⟨rfl, h.callbacks, h.onStarted⟩, rfl, rfl, rfl⟩
  have hshared : (Likeness.confined part n s).Shared s s' := ⟨hs, fun _ _ => rfl⟩
  exact Likeness.poll hsame hshared host w

/-- A look leaves the parts of the other children as they are, and an entry that keeps to its
child. -/
theorem poll (h : entry.KeepsTo part n) (host : Host ω) (s : σ) (w : ω) :
    ((entry.poll host s w).1.finished = false → (entry.poll host s w).1.KeepsTo part n) ∧
      ∀ k ≠ n, part k (entry.poll host s w).2.1 = part k s := by
  have hlooked := h.looked rfl host w (s := s)
  refine ⟨?_, hlooked.shared.2⟩
  intro hfinished
  obtain ⟨-, hkeep, hnone⟩ := (hlooked.entry hfinished).calls
  exact ⟨hkeep, hnone⟩

/-- **A look at the child goes the same way** with other states of the other children and on another
machine, if this gives the same for the calls that the look makes. -/
theorem poll_twins {host : Host ω} {host' : Host ω'} (h : entry.KeepsTo part n) {s s' : σ}
    (hs : part n s = part n s') {w : ω} {v : ω'}
    (hshows : Shows host host' (entry.calls host s w) w v) :
    Twins part n (entry.poll host s w) (entry.poll host' s' v) ∧
      entry.calls host' s' v = entry.calls host s w := by
  obtain ⟨v', hpoll, hcalls⟩ := entry.poll_shown s hshows
  have hlooked := h.looked hs host' v
  have hlogged := h.looked hs host'.logged (v, [])
  rw [hpoll] at hlooked
  refine ⟨⟨?_, hlooked.child.symm, hlooked.finished.symm, hlooked.shared.1⟩, ?_⟩
  · intro hfinished
    have hentries := hlooked.entry hfinished
    exact (hentries.eq hentries.calls.1).symm
  · rw [← hcalls]
    exact congrArg Prod.snd hlogged.machine.symm

end Entry.KeepsTo

end Chaperone
