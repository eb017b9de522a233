import Chaperone.Proofs.Supervisor.Listener
import Chaperone.Proofs.Text.Chunks

/-!
# Every byte is handed over once

Bytes wait in three places before their text is handed to a callback: in a pipe, in the residue of
the child, and at the beginning of a character in a decoder.  `Stands` keeps the account of all
three.  Of each stream the bytes received are those that its decoder has taken and then the residue
(`Flow`), and the text that the decoder has given is the text that was handed over (`HasRead`).

* `Stands.exchange`, `Stands.recordExit`: the account goes on through a look.
* `Stands.deliverRest`: when the rest of the output has been handed over, all text handed over for
  a stream is the text of all bytes received from it.
-/

namespace Chaperone

open Text.Utf8

variable {σ ω : Type}

def heard (stream : OutputStream) : List Piece → String
  | [] => ""
  | p :: rest => if p.1 = stream then p.2 ++ heard stream rest else heard stream rest

theorem heard_append (stream : OutputStream) (pieces more : List Piece) :
    heard stream (pieces ++ more) = heard stream pieces ++ heard stream more := by
  induction pieces with
  | nil => exact String.empty_append.symm
  | cons p rest ih =>
    rw [List.cons_append, heard, heard, ih]
    split
    · exact String.append_assoc.symm
    · rfl

@[simp] theorem heard_piece (stream : OutputStream) (text : String) :
    heard stream (piece stream text) = text := by
  rw [piece]
  split
  · next h => exact (String.isEmpty_iff.mp h).symm
  · simp [heard]

theorem heard_piece_of_ne {stream other : OutputStream} (h : other ≠ stream) (text : String) :
    heard other (piece stream text) = "" := by
  rw [piece]
  split
  · rfl
  · simp [heard, h.symm]

/-- The account of the output of an entry. -/
structure Stands (listener : Listener σ) (out : OutputStream → Option Descriptor)
    (entry : Entry σ) (s : σ) (log : Log) (pieces : List Piece) : Prop where
  hears : listener.Hears entry.callbacks s pieces
  account : ∃ seen, Flow out seen entry.child log ∧
    ∀ stream, (entry.decoder stream).HasRead (seen stream) (heard stream pieces)

namespace Stands

variable {listener : Listener σ} {out : OutputStream → Option Descriptor} {entry : Entry σ} {s : σ}
  {w w' : ω × Log} {pieces : List Piece}

/-- Between the parts of a look the account does not depend on the input of the child. -/
theorem tells (h : Stands listener out entry s w.2 pieces) {child : Child}
    (hchild : child.withoutInput = entry.child.withoutInput) (hw : Only Call.Tells w w') :
    Stands listener out { entry with child } s w'.2 pieces := by
  obtain ⟨hhears, seen, hflow, hread⟩ := h
  refine ⟨hhears, seen, hflow.tells hchild hw, ?_⟩
  intro stream
  cases stream
  · exact hread .stdout
  · exact hread .stderr

theorem flush (h : Stands listener out entry s w.2 pieces) (host : Host ω) :
    Stands listener out (entry.flush host.logged w).1 s (entry.flush host.logged w).2.2 pieces := by
  obtain ⟨hentry, hchild⟩ := entry.flush_entry host.logged w
  rw [hentry]
  exact h.tells hchild (entry.tells_flush host w)

/-- A delivery takes the residue and what it receives through the decoder. -/
theorem deliver (h : Stands listener out entry s w.2 pieces) (hout : Apart out) (host : Host ω)
    (stream : OutputStream) {m : Entry σ × σ × ω × Log}
    (hm : entry.deliver host.logged stream s w = m) :
    ∃ text, Stands listener out m.1 m.2.1 m.2.2.2 (pieces ++ piece stream text) := by
  obtain ⟨hhears, seen, hflow, hread⟩ := h
  rw [Entry.deliver_eq] at hm
  have hflow' := hflow.readStream hout host stream
  generalize entry.child.readStream host.logged stream w = read at hm hflow'
  obtain ⟨state, bytes, child, w'⟩ := read
  simp only at hm hflow'
  generalize hd : ({ entry with child }.withDecoder
    ((entry.decoder stream).decode bytes).1 stream) = decoded at hm
  subst hm
  refine ⟨((entry.decoder stream).decode bytes).2, ?_, Function.update seen stream
    (seen stream ++ bytes), ?_, ?_⟩
  · refine decoded.hears_emit host.logged stream _ s w' ?_
    rw [← hd, Entry.callbacks_withDecoder]
    exact hhears
  · refine Flow.tells (w := w') ?_ (decoded.withoutInput_emit host.logged stream _ s w')
      (decoded.tells_emit host stream _ s w')
    rw [← hd, Entry.child_withDecoder]
    exact hflow'
  · intro other
    rw [Entry.decoder_emit, ← hd, heard_append]
    by_cases hne : other = stream
    · subst hne
      rw [Function.update_self, Entry.decoder_withDecoder, heard_piece]
      exact (hread other).decode bytes
    · rw [Function.update_of_ne hne, Entry.decoder_withDecoder_of_ne _ _ _ hne,
        heard_piece_of_ne hne, String.append_empty]
      cases other
      · exact hread .stdout
      · exact hread .stderr

theorem exchange (h : Stands listener out entry s w.2 pieces) (hout : Apart out) (host : Host ω)
    {m : Entry σ × σ × ω × Log} (hm : entry.exchange host.logged s w = m) :
    ∃ more, Stands listener out m.1 m.2.1 m.2.2.2 (pieces ++ more) := by
  obtain ⟨text, hfirst⟩ := (h.flush host).deliver hout host .stdout rfl
  obtain ⟨text', hsecond⟩ := hfirst.deliver hout host .stderr hm
  rw [List.append_assoc] at hsecond
  exact ⟨_, hsecond⟩

theorem recordExit (h : Stands listener out entry s w.2 pieces) (hout : Apart out) (host : Host ω)
    (status : ExitStatus) :
    Stands listener out { entry with child := (entry.child.recordExit host.logged status w).1 } s
      (entry.child.recordExit host.logged status w).2.2 pieces := by
  obtain ⟨hhears, seen, hflow, hread⟩ := h
  refine ⟨hhears, seen, hflow.recordExit hout host status, ?_⟩
  intro stream
  cases stream
  · exact hread .stdout
  · exact hread .stderr

theorem asks (h : Stands listener out entry s w.2 pieces) (hw : Only Call.Asks w w') :
    Stands listener out entry s w'.2 pieces := by
  obtain ⟨hhears, seen, hflow, hread⟩ := h
  exact ⟨hhears, seen, hflow.quiet hw fun _ hcall => hcall.payload, hread⟩

end Stands

/-! ### The rest of the output -/

namespace Entry

theorem residue_deliver (host : Host ω) (stream : OutputStream) (entry : Entry σ) (s : σ) (w : ω) :
    (entry.deliver host stream s w).1.child.residue stream = [] := by
  rw [deliver_eq]
  rw [Child.residue_of_withoutInput (Entry.withoutInput_emit ..), child_withDecoder]
  exact Child.residue_readStream ..

theorem residue_deliver_of_ne (host : Host ω) (stream : OutputStream) (entry : Entry σ) (s : σ)
    (w : ω) {other : OutputStream} (h : other ≠ stream) :
    (entry.deliver host stream s w).1.child.residue other = entry.child.residue other := by
  rw [deliver_eq]
  rw [Child.residue_of_withoutInput (Entry.withoutInput_emit ..), child_withDecoder]
  exact Child.residue_readStream_of_ne _ _ _ _ h

/-- When both streams were delivered, nothing that was received is left at the child. -/
theorem residue_deliver_both (host : Host ω) (entry : Entry σ) (s : σ) (w : ω)
    (stream : OutputStream) :
    let m := entry.deliver host .stdout s w
    (m.1.deliver host .stderr m.2.1 m.2.2).1.child.residue stream = [] := by
  intro m
  cases stream
  · rw [residue_deliver_of_ne _ _ _ _ _ (by decide)]
    exact residue_deliver ..
  · exact residue_deliver ..

theorem residue_exchange (host : Host ω) (entry : Entry σ) (s : σ) (w : ω)
    (stream : OutputStream) : (entry.exchange host s w).1.child.residue stream = [] :=
  residue_deliver_both ..

/-- The tail of a stream is handed over without a read. -/
theorem deliverTail_spec {listener : Listener σ} (host : Host ω) (stream : OutputStream)
    {entry : Entry σ} {s : σ} (w : ω × Log) {pieces : List Piece}
    (h : listener.Hears entry.callbacks s pieces) {m : Entry σ × σ × ω × Log}
    (hm : entry.deliverTail host.logged stream s w = m) :
    listener.Hears m.1.callbacks m.2.1
        (pieces ++ piece stream (entry.decoder stream).finish.2) ∧
      Only Call.Tells w m.2.2 ∧
      ∀ other ≠ stream, m.1.decoder other = entry.decoder other := by
  subst hm
  refine ⟨hears_emit _ _ _ _ _ _ ?_, tells_emit .., ?_⟩
  · rw [callbacks_withDecoder]
    exact h
  · intro other hne
    rw [deliverTail, decoder_emit]
    exact decoder_withDecoder_of_ne _ _ _ hne

end Entry

/-- **When the rest has been handed over, all text is that of all bytes.** -/
theorem Stands.deliverRest {listener : Listener σ} {out : OutputStream → Option Descriptor}
    {entry : Entry σ} {s : σ} {w : ω × Log} {pieces : List Piece}
    (h : Stands listener out entry s w.2 pieces) (hout : Apart out) (host : Host ω)
    {m : Entry σ × σ × ω × Log} (hm : entry.deliverRest host.logged s w = m) :
    ∃ all, listener.Hears m.1.callbacks m.2.1 all ∧
      ∀ stream, heard stream all = lossy (received (out stream) m.2.2.2) := by
  generalize h₁ : entry.deliver host.logged .stdout s w = m₁
  obtain ⟨text, hfirst⟩ := h.deliver hout host .stdout h₁
  generalize h₂ : m₁.1.deliver host.logged .stderr m₁.2.1 m₁.2.2 = m₂
  obtain ⟨text', hsecond⟩ := hfirst.deliver hout host .stderr h₂
  generalize pieces ++ piece .stdout text ++ piece .stderr text' = given at hsecond
  obtain ⟨hhears, seen, hflow, hread⟩ := hsecond
  have hempty (stream : OutputStream) : m₂.1.child.residue stream = [] := by
    rw [← h₂, ← h₁]
    exact Entry.residue_deliver_both ..
  generalize h₃ : m₂.1.deliverTail host.logged .stdout m₂.2.1 m₂.2.2 = m₃
  obtain ⟨hhears₃, htells₃, hdecoder⟩ := Entry.deliverTail_spec host .stdout m₂.2.2 hhears h₃
  have h₄ : m₃.1.deliverTail host.logged .stderr m₃.2.1 m₃.2.2 = m := by
    rw [← hm, ← h₃, ← h₂, ← h₁]
    rfl
  obtain ⟨hhears₄, htells₄, -⟩ := Entry.deliverTail_spec host .stderr m₃.2.2 hhears₃ h₄
  rw [hdecoder .stderr (by decide)] at hhears₄
  have hall (stream : OutputStream) : received (out stream) m.2.2.2 = seen stream := by
    rw [(htells₃.trans htells₄).received_eq fun _ hcall => hcall.payload _, hflow.received stream,
      hempty stream, List.append_nil]
  refine ⟨_, hhears₄, ?_⟩
  intro stream
  rw [hall, ← (hread stream).finish, heard_append, heard_append]
  cases stream
  · rw [heard_piece, heard_piece_of_ne (by decide), String.append_empty]
  · rw [heard_piece, heard_piece_of_ne (by decide), String.append_empty]

/-- After a look the account goes on, or the exit is all that is left to hand over. -/
theorem Stands.poll {listener : Listener σ} {out : OutputStream → Option Descriptor}
    {entry : Entry σ} {s : σ} {w : ω × Log} {pieces : List Piece}
    (h : Stands listener out entry s w.2 pieces) (hout : Apart out) (host : Host ω)
    (hstatus : entry.child.status = none) {m : Entry σ × σ × ω × Log}
    (hm : entry.poll host.logged s w = m) :
    (reported m.2.2.2 = reported w.2 ∧ silences m.2.2.2 = silences w.2 + 1 ∧
        m.1.child.status = none ∧ (∀ stream, m.1.child.residue stream = []) ∧
        m.1.finished = entry.finished ∧
        ∃ more, Stands listener out m.1 m.2.1 m.2.2.2 (pieces ++ more)) ∨
      ∃ (status : ExitStatus) (last : Entry σ × σ × ω × Log) (all : List Piece),
        reported m.2.2.2 = reported w.2 ++ [status] ∧
          m = last.1.conclude host.logged status last.2.1 last.2.2 ∧
          listener.Hears last.1.callbacks last.2.1 all ∧
          ∀ stream, heard stream all = lossy (received (out stream) m.2.2.2) := by
  have hhands := entry.hands_exchange host listener s w
  generalize hx : entry.exchange host.logged s w = x at hhands
  obtain ⟨more, hstands⟩ := h.exchange hout host hx
  have hnone : x.1.child.status = none := hhands.status.trans hstatus
  have hempty (stream : OutputStream) : x.1.child.residue stream = [] := by
    rw [← hx]
    exact entry.residue_exchange host.logged s w stream
  have hcall : Stands listener out x.1 x.2.1 (host.logged.reap x.1.child.pid x.2.2).2.2
      (pieces ++ more) := hstands.asks (.one (.reap x.1.child.pid _) trivial rfl)
  have hasked : asked (host.logged.reap x.1.child.pid x.2.2).2.2 =
      asked w.2 ++ [(x.1.child.pid, (host.logged.reap x.1.child.pid x.2.2).1)] := by
    rw [← hhands.asked]
    exact asked_append x.2.2.2 _
  cases hr : (host.logged.reap x.1.child.pid x.2.2).1.status? with
  | none =>
    rw [Entry.poll_of_silence host.logged entry s w hx hnone hr] at hm
    subst hm
    refine Or.inl ⟨?_, silences_succ_of_asked hasked hr, hnone, hempty, hhands.finished, more,
      hcall⟩
    rw [reported_append_of_asked hasked, hr]
    exact List.append_nil _
  | some status =>
    rw [Entry.poll_of_report host.logged entry s w hx hnone hr] at hm
    dsimp only at hm
    have hrecorded := hcall.recordExit hout host status
    have hquiet := Child.asked_recordExit host status x.1.child
      (host.logged.reap x.1.child.pid x.2.2).2
    generalize x.1.child.recordExit host.logged status _ = recorded at hm hrecorded hquiet
    have hrest := Entry.hands_deliverRest host { x.1 with child := recorded.1 } listener x.2.1
      recorded.2
    dsimp only at hrest
    generalize hl : Entry.deliverRest host.logged { x.1 with child := recorded.1 } x.2.1
      recorded.2 = last at hm hrest
    obtain ⟨all, hhears, hall⟩ := hrecorded.deliverRest hout host hl
    subst hm
    refine Or.inr ⟨status, last, all, ?_, rfl, hhears, hall⟩
    have hlast := reported_append_of_asked (hrest.asked.trans (hquiet.trans hasked))
    rw [hr] at hlast
    exact hlast

end Chaperone
