import Chaperone.Supervisor.Entry

/-!
# The parts of a look

A look at a child is a sequence of five kinds of steps, which depends on whether the child has
ended.  What each of them does, and what may be done one after the other, a look does
(`Entry.Parts.poll`).
-/

namespace Chaperone.Entry

variable {σ ω : Type} {host : Host ω}

/-- A relation between moments of an entry that holds across every part of a look. -/
structure Parts (host : Host ω) (R : Entry σ × σ × ω → Entry σ × σ × ω → Prop) : Prop where
  trans : ∀ {m m' m''}, R m m' → R m' m'' → R m m''
  flush : ∀ (entry : Entry σ) s w,
    R (entry, s, w) ((entry.flush host w).1, s, (entry.flush host w).2)
  deliver : ∀ (entry : Entry σ) s w stream, R (entry, s, w) (entry.deliver host stream s w)
  deliverTail : ∀ (entry : Entry σ) s w stream, R (entry, s, w) (entry.deliverTail host stream s w)
  ask : ∀ (entry : Entry σ) s w,
    let r := entry.child.tryWait host w
    R (entry, s, w) ({ entry with child := r.2.1 }, s, r.2.2)
  conclude : ∀ (entry : Entry σ) s w status, R (entry, s, w) (entry.conclude host status s w)

namespace Parts

variable {R : Entry σ × σ × ω → Entry σ × σ × ω → Prop} (h : Parts host R)

include h

theorem exchange (entry : Entry σ) (s : σ) (w : ω) :
    R (entry, s, w) (entry.exchange host s w) :=
  h.trans (h.trans (h.flush entry s w) (h.deliver _ s _ .stdout)) (h.deliver _ _ _ .stderr)

theorem deliverRest (entry : Entry σ) (s : σ) (w : ω) :
    R (entry, s, w) (entry.deliverRest host s w) :=
  h.trans (h.trans (h.deliver entry s w .stdout) (h.deliver _ _ _ .stderr))
    (h.trans (h.deliverTail _ _ _ .stdout) (h.deliverTail _ _ _ .stderr))

theorem finish (entry : Entry σ) (s : σ) (w : ω) (status : ExitStatus) :
    R (entry, s, w) (entry.finish host status s w) :=
  h.trans (h.deliverRest entry s w) (h.conclude _ _ _ status)

/-- **A look** is made of its parts. -/
theorem poll (entry : Entry σ) (s : σ) (w : ω) : R (entry, s, w) (entry.poll host s w) := by
  have hexchange := h.exchange entry s w
  simp only [Entry.poll]
  generalize entry.exchange host s w = m at hexchange ⊢
  have hlook := h.trans hexchange (h.ask m.1 m.2.1 m.2.2)
  generalize m.1.child.tryWait host m.2.2 = r at hlook ⊢
  obtain ⟨_ | _ | status, child, w'⟩ := r
  · exact hlook
  · exact hlook
  · exact h.trans hlook (h.finish _ _ _ status)

end Parts

end Chaperone.Entry
