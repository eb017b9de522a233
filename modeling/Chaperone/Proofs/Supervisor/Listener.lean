import Chaperone.Proofs.Child.Exit
import Chaperone.Supervisor.Entry

/-!
# What callbacks are handed

The output of a child is handed to its callbacks in pieces of text.  A `Listener` is any account of
these pieces that the callbacks keep, in their memory or in the state that they share.  One look at
a child only adds pieces to the account, none of them empty, until it has seen the exit: this is
`Hands`, which every part of a look satisfies.

* `Entry.hands_exchange`: before the exit is looked for.
* `Entry.hands_deliverRest`: after it was seen, before it is handed over.
* `Entry.poll_of_silence`, `Entry.poll_of_report`: the answer to the only question that a look asks
  decides how it ends.
-/

namespace Chaperone

variable {σ ω : Type}

abbrev Piece := OutputStream × String

def piece (stream : OutputStream) (text : String) : List Piece :=
  if text.isEmpty then [] else [(stream, text)]

theorem ne_empty_of_mem_piece {stream : OutputStream} {text : String} {p : Piece}
    (h : p ∈ piece stream text) : p.2 ≠ "" := by
  simp only [piece] at h
  split at h
  · cases h
  · next ht =>
    obtain rfl := List.mem_singleton.mp h
    rintro rfl
    exact ht rfl

/-- An account of the pieces that callbacks were handed. -/
structure Listener (σ : Type) : Type 1 where
  /-- The callbacks, with the state they share, have been handed these pieces. -/
  Hears : Callbacks σ → σ → List Piece → Prop
  /-- Every run of an output callback adds its piece. -/
  hears_output : ∀ {callbacks s pieces}, Hears callbacks s pieces → ∀ stream, ∃ callback,
    callbacks.onOutput stream = some callback ∧
      ∀ {ω : Type} (host : Host ω) occasion text child w result,
        ((callback occasion text callbacks.memory s).run host child w).1 = result →
        Hears (callbacks.remember result.1) result.2 (pieces ++ [(stream, text)])

/-- To callbacks that were handed some pieces, pieces that are not empty were added. -/
def Listener.Adds (listener : Listener σ) (c : Callbacks σ) (s : σ) (c' : Callbacks σ) (s' : σ) :
    Prop :=
  ∀ pieces, listener.Hears c s pieces →
    ∃ more, (∀ p ∈ more, p.2 ≠ "") ∧ listener.Hears c' s' (pieces ++ more)

theorem Listener.Adds.trans {listener : Listener σ} {c c' c'' : Callbacks σ} {s s' s'' : σ}
    (h : listener.Adds c s c' s') (g : listener.Adds c' s' c'' s'') :
    listener.Adds c s c'' s'' := by
  intro pieces hp
  obtain ⟨more, hmore, hm⟩ := h pieces hp
  obtain ⟨rest, hrest, hr⟩ := g _ hm
  refine ⟨more ++ rest, ?_, by rwa [← List.append_assoc]⟩
  intro p hp
  rcases List.mem_append.mp hp with hp | hp
  · exact hmore p hp
  · exact hrest p hp

theorem Listener.Adds.refl (listener : Listener σ) (c : Callbacks σ) (s : σ) :
    listener.Adds c s c s :=
  fun _ hp => ⟨[], by simp, by rwa [List.append_nil]⟩

structure Hands (listener : Listener σ) (m m' : Entry σ × σ × ω × Log) : Prop where
  pid : m'.1.child.pid = m.1.child.pid
  status : m'.1.child.status = m.1.child.status
  finished : m'.1.finished = m.1.finished
  asked : asked m'.2.2.2 = asked m.2.2.2
  adds : listener.Adds m.1.callbacks m.2.1 m'.1.callbacks m'.2.1

namespace Hands

variable {listener : Listener σ} {m m' m'' : Entry σ × σ × ω × Log}

theorem trans (h : Hands listener m m') (g : Hands listener m' m'') : Hands listener m m'' where
  pid := g.pid.trans h.pid
  status := g.status.trans h.status
  finished := g.finished.trans h.finished
  asked := g.asked.trans h.asked
  adds := h.adds.trans g.adds

/-- What the callbacks do not see hands nothing over. -/
theorem of_callbacks (hpid : m'.1.child.pid = m.1.child.pid)
    (hstatus : m'.1.child.status = m.1.child.status) (hfinished : m'.1.finished = m.1.finished)
    (hasked : Chaperone.asked m'.2.2.2 = Chaperone.asked m.2.2.2)
    (hcallbacks : m'.1.callbacks = m.1.callbacks) (hs : m'.2.1 = m.2.1) :
    Hands listener m m' :=
  ⟨hpid, hstatus, hfinished, hasked, by
    rw [hcallbacks, hs]
    exact .refl _ _ _⟩

end Hands

namespace Entry

/-! ### Decoders -/

section
variable (entry : Entry σ) (d : Text.Utf8.Decoder) (stream : OutputStream)

@[simp] theorem child_withDecoder : (entry.withDecoder d stream).child = entry.child := by
  cases stream <;> rfl

@[simp] theorem callbacks_withDecoder :
    (entry.withDecoder d stream).callbacks = entry.callbacks := by cases stream <;> rfl

@[simp] theorem finished_withDecoder : (entry.withDecoder d stream).finished = entry.finished := by
  cases stream <;> rfl

@[simp] theorem decoder_withDecoder : (entry.withDecoder d stream).decoder stream = d := by
  cases stream <;> rfl

theorem decoder_withDecoder_of_ne {other : OutputStream} (h : other ≠ stream) :
    (entry.withDecoder d stream).decoder other = entry.decoder other := by
  cases stream <;> cases other <;> first | rfl | exact absurd rfl h

end

/-! ### The first callback -/

/-- The first callback reaches nothing but the input of its child. -/
theorem launched_spec (host : Host ω) (child : Child) (callbacks : Callbacks σ) (kill : Bool)
    (s : σ) (w : ω × Log) {m : Entry σ × σ × ω × Log}
    (hm : launched host.logged child callbacks kill s w = m) :
    m.1.child.withoutInput = child.withoutInput ∧ Only Call.Tells w m.2.2 ∧
      m.1.finished = false ∧ ∀ stream, m.1.decoder stream = .new := by
  simp only [launched] at hm
  split at hm
  · subst hm
    exact ⟨rfl, .refl _ _, rfl, fun stream => by cases stream <;> rfl⟩
  · subst hm
    exact ⟨Script.withoutInput_run .., Script.tells_run .., rfl,
      fun stream => by cases stream <;> rfl⟩

/-! ### Handing over one piece -/

section
variable (host : Host ω) (stream : OutputStream) (text : String) (entry : Entry σ) (s : σ)

/-- A callback reaches nothing of its child but the input. -/
theorem withoutInput_emit (w : ω) :
    (entry.emit host stream text s w).1.child.withoutInput = entry.child.withoutInput := by
  simp only [emit]
  split
  · rfl
  · split
    · rfl
    · exact Script.withoutInput_run ..

@[simp] theorem decoder_emit (w : ω) (other : OutputStream) :
    (entry.emit host stream text s w).1.decoder other = entry.decoder other := by
  simp only [emit]
  repeat' split
  all_goals cases other <;> rfl

@[simp] theorem finished_emit (w : ω) :
    (entry.emit host stream text s w).1.finished = entry.finished := by
  simp only [emit]
  repeat' split
  all_goals rfl

theorem tells_emit (w : ω × Log) :
    Only Call.Tells w (entry.emit host.logged stream text s w).2.2 := by
  simp only [emit]
  split
  · exact .refl _ _
  · split
    · exact .refl _ _
    · exact Script.tells_run ..

theorem hears_emit {listener : Listener σ} {pieces : List Piece} (w : ω)
    (h : listener.Hears entry.callbacks s pieces) :
    listener.Hears (entry.emit host stream text s w).1.callbacks
      (entry.emit host stream text s w).2.1 (pieces ++ piece stream text) := by
  obtain ⟨callback, hc, hrun⟩ := listener.hears_output h stream
  simp only [emit, piece]
  split
  · rwa [List.append_nil]
  · rw [hc]
    exact hrun host _ text _ w _ rfl

theorem hands_emit (listener : Listener σ) (w : ω × Log) :
    Hands listener (entry, s, w) (entry.emit host.logged stream text s w) where
  pid := Child.pid_of_withoutInput (entry.withoutInput_emit ..)
  status := Child.status_of_withoutInput (entry.withoutInput_emit ..)
  finished := entry.finished_emit ..
  asked := (entry.tells_emit host stream text s w).asked_eq fun _ h => h.question?
  adds _ hp := ⟨_, fun _ => ne_empty_of_mem_piece, entry.hears_emit host.logged stream text s w hp⟩

end

/-! ### Handing over what a stream has -/

section
variable (host : Host ω) (stream : OutputStream) (entry : Entry σ) (s : σ)

/-- Nothing comes of reading nothing, so a delivery always is a read, a decoding and a piece. -/
theorem deliver_eq (w : ω) :
    entry.deliver host stream s w =
      let read := entry.child.readStream host stream w
      let decoded := (entry.decoder stream).decode read.2.1
      ({ entry with child := read.2.2.1 }.withDecoder decoded.1 stream).emit host stream decoded.2 s
        read.2.2.2 := by
  simp only [deliver]
  generalize entry.child.readStream host stream w = read
  obtain ⟨state, bytes, child, w'⟩ := read
  cases bytes with
  | nil =>
    simp only [Text.Utf8.Decoder.decode_nil]
    cases stream <;> rfl
  | cons b rest => cases stream <;> rfl

theorem hands_deliver (listener : Listener σ) (w : ω × Log) :
    Hands listener (entry, s, w) (entry.deliver host.logged stream s w) := by
  rw [deliver_eq]
  refine Hands.trans (Hands.of_callbacks ?_ ?_ ?_ ?_ ?_ ?_) (hands_emit ..)
  · simp
  · simp
  · simp
  · exact (entry.child.readStream_spec stream host w).1.asked_eq fun _ h => h.question?
  · simp
  · rfl

theorem hands_deliverTail (listener : Listener σ) (w : ω × Log) :
    Hands listener (entry, s, w) (entry.deliverTail host.logged stream s w) := by
  refine Hands.trans (Hands.of_callbacks ?_ ?_ ?_ ?_ ?_ ?_) (hands_emit ..) <;> simp

end

/-! ### The parts of a look -/

section
variable (host : Host ω) (entry : Entry σ)

/-- A flush reaches nothing but the input of the child. -/
theorem flush_entry (w : ω) :
    (entry.flush host w).1 = { entry with child := (entry.flush host w).1.child } ∧
      (entry.flush host w).1.child.withoutInput = entry.child.withoutInput := by
  have hflush := Child.withoutInput_flushStdin host entry.child w
  simp only [flush]
  split
  · generalize entry.child.flushStdin host w = r at hflush ⊢
    obtain ⟨result, child, w'⟩ := r
    cases result with
    | ok => exact ⟨rfl, hflush⟩
    | error cause =>
      dsimp only
      split <;> exact ⟨rfl, hflush⟩
  · exact ⟨rfl, rfl⟩

theorem tells_flush (w : ω × Log) : Only Call.Tells w (entry.flush host.logged w).2 := by
  have hflush := Child.tells_flushStdin host entry.child w
  simp only [flush]
  split
  · generalize entry.child.flushStdin host.logged w = r at hflush ⊢
    obtain ⟨result, child, w'⟩ := r
    cases result with
    | ok => exact hflush
    | error cause =>
      dsimp only
      split
      · exact hflush.trans (Child.tells_signal host child w' .kill)
      · exact hflush
  · exact .refl _ _

theorem hands_flush (listener : Listener σ) (s : σ) (w : ω × Log) :
    Hands listener (entry, s, w)
      ((entry.flush host.logged w).1, s, (entry.flush host.logged w).2) := by
  obtain ⟨hentry, hchild⟩ := entry.flush_entry host.logged w
  refine Hands.of_callbacks ?_ ?_ ?_ ?_ ?_ rfl
  · exact Child.pid_of_withoutInput hchild
  · exact Child.status_of_withoutInput hchild
  · exact congrArg (·.finished) hentry
  · exact (entry.tells_flush host w).asked_eq fun _ h => h.question?
  · exact congrArg (·.callbacks) hentry

theorem hands_exchange (listener : Listener σ) (s : σ) (w : ω × Log) :
    Hands listener (entry, s, w) (entry.exchange host.logged s w) :=
  ((entry.hands_flush host listener s w).trans (hands_deliver host .stdout _ _ listener _)).trans
    (hands_deliver host .stderr _ _ listener _)

theorem hands_deliverRest (listener : Listener σ) (s : σ) (w : ω × Log) :
    Hands listener (entry, s, w) (entry.deliverRest host.logged s w) :=
  have hread := (hands_deliver host .stdout entry s listener w).trans
    (hands_deliver host .stderr _ _ listener _)
  (hread.trans (hands_deliverTail host .stdout _ _ listener _)).trans
    (hands_deliverTail host .stderr _ _ listener _)

end

/-! ### The end of a look -/

section
variable (host : Host ω) (entry : Entry σ) (s : σ) (w : ω)

/-- An answer that reports no end leaves the entry where the exchange left it. -/
theorem poll_of_silence {m : Entry σ × σ × ω} (hm : entry.exchange host s w = m)
    (hstatus : m.1.child.status = none)
    (hr : (host.reap m.1.child.pid m.2.2).1.status? = none) :
    entry.poll host s w = (m.1, m.2.1, (host.reap m.1.child.pid m.2.2).2) := by
  simp only [poll, hm, m.1.child.tryWait_of_silence host m.2.2 hstatus hr]
  generalize host.reap m.1.child.pid m.2.2 = reaped
  obtain ⟨result, w'⟩ := reaped
  cases result <;> rfl

/-- An answer that reports the end is recorded, and what is left is handed over. -/
theorem poll_of_report {m : Entry σ × σ × ω} (hm : entry.exchange host s w = m)
    (hstatus : m.1.child.status = none) {status : ExitStatus}
    (hr : (host.reap m.1.child.pid m.2.2).1.status? = some status) :
    entry.poll host s w =
      let recorded := m.1.child.recordExit host status (host.reap m.1.child.pid m.2.2).2
      let rest := { m.1 with child := recorded.1 }.deliverRest host m.2.1 recorded.2
      rest.1.conclude host status rest.2.1 rest.2.2 := by
  simp only [poll, hm, m.1.child.tryWait_of_report host m.2.2 hstatus hr, finish]

end

/-- A look asks once, and hands over the exit when the answer reports it. -/
theorem poll_spec (host : Host ω) (listener : Listener σ) (entry : Entry σ) (s : σ)
    (w : ω × Log) (hstatus : entry.child.status = none) :
    ∃ answer, asked (entry.poll host.logged s w).2.2.2 =
        asked w.2 ++ [(entry.child.pid, answer)] ∧
      (entry.poll host.logged s w).1.child.status = answer.status? ∧
      match answer.status? with
      | none =>
        (entry.poll host.logged s w).1.finished = entry.finished ∧
          listener.Adds entry.callbacks s (entry.poll host.logged s w).1.callbacks
            (entry.poll host.logged s w).2.1
      | some status => ∃ m : Entry σ × σ × ω × Log,
          listener.Adds entry.callbacks s m.1.callbacks m.2.1 ∧
            entry.poll host.logged s w = m.1.conclude host.logged status m.2.1 m.2.2 := by
  have hbefore := entry.hands_exchange host listener s w
  generalize hm : entry.exchange host.logged s w = m at hbefore
  have hnone : m.1.child.status = none := hbefore.status.trans hstatus
  have hasked : asked (host.logged.reap m.1.child.pid m.2.2).2.2 =
      asked w.2 ++ [(entry.child.pid, (host.logged.reap m.1.child.pid m.2.2).1)] := by
    rw [← hbefore.asked, ← hbefore.pid]
    exact asked_append m.2.2.2 _
  refine ⟨(host.logged.reap m.1.child.pid m.2.2).1, ?_⟩
  cases hr : (host.logged.reap m.1.child.pid m.2.2).1.status? with
  | none =>
    rw [poll_of_silence host.logged entry s w hm hnone hr]
    exact ⟨hasked, hnone, hbefore.finished, hbefore.adds⟩
  | some status =>
    rw [poll_of_report host.logged entry s w hm hnone hr]
    have hrecorded := m.1.child.recordExit_child host.logged
      (host.logged.reap m.1.child.pid m.2.2).2 status
    have hquiet := Child.asked_recordExit host status m.1.child
      (host.logged.reap m.1.child.pid m.2.2).2
    generalize m.1.child.recordExit host.logged status _ = recorded at hrecorded hquiet ⊢
    have hafter := hands_deliverRest host { m.1 with child := recorded.1 } listener m.2.1 recorded.2
    refine ⟨?_, ?_, _, hbefore.adds.trans hafter.adds, rfl⟩
    · rw [← hasked, ← hquiet]
      exact hafter.asked
    · exact hafter.status.trans hrecorded.1

end Entry

end Chaperone
