import Chaperone.Proofs.Child.InStep
import Chaperone.Proofs.Supervisor.Hom
import Chaperone.Proofs.Supervisor.Signals

/-!
# Looks in step

A look at a child goes the same way on two machines that give the same for the calls that it makes
(`Entry.poll_shown`).
-/

namespace Chaperone

variable {ω ω' : Type}

theorem Minds.grows {m m' : Child × ω × Log} {w : ω × Log} (h : Minds m m') (hw : m'.2 = w) :
    m.2.2 <+: w.2 := by
  obtain ⟨calls, hlog, -⟩ := h.calls
  exact ⟨calls, hw ▸ hlog.symm⟩

section

variable {host : Host ω} {host' : Host ω'} {all : Log} {w w' : ω × Log} {v : ω' × Log}

/-! ### The parts of a look -/

namespace Entry

variable {σ : Type} {entry entry' : Entry σ} {s s' : σ} {stream : OutputStream}

theorem emit_inStep (h : InStep host host' all w v) {text : String}
    (hr : entry.emit host.logged stream text s w = (entry', s', w')) (hlast : w'.2 <+: all) :
    ∃ v', entry.emit host'.logged stream text s v = (entry', s', v') ∧
      InStep host host' all w' v' := by
  simp only [emit] at hr ⊢
  split at hr
  · next hempty =>
    obtain ⟨rfl, rfl, rfl⟩ := hr
    rw [if_pos hempty]
    exact ⟨v, rfl, h⟩
  · next hempty =>
    rw [if_neg hempty]
    cases hc : entry.callbacks.onOutput stream with
    | none =>
      rw [hc] at hr
      obtain ⟨rfl, rfl, rfl⟩ := hr
      exact ⟨v, rfl, h⟩
    | some callback =>
      rw [hc] at hr
      dsimp only at hr ⊢
      rw [show entry.occasion host'.logged v = entry.occasion host.logged w from
        congrArg (Occasion.mk _) h.wallClock]
      rcases hrun : (callback (entry.occasion host.logged w) text entry.callbacks.memory s).run
        host.logged entry.child w with ⟨value, child, w₁⟩
      rw [hrun] at hr
      obtain ⟨rfl, rfl, rfl⟩ := hr
      obtain ⟨v', hran, hstep⟩ := Script.run_inStep h hrun hlast
      rw [hran]
      exact ⟨v', rfl, hstep⟩

theorem deliver_inStep (h : InStep host host' all w v)
    (hr : entry.deliver host.logged stream s w = (entry', s', w')) (hlast : w'.2 <+: all) :
    ∃ v', entry.deliver host'.logged stream s v = (entry', s', v') ∧
      InStep host host' all w' v' := by
  rw [deliver_eq] at hr ⊢
  rcases hread : entry.child.readStream host.logged stream w with ⟨result, bytes, child, w₁⟩
  rw [hread] at hr
  have hgrows := (tells_emit host stream _ _ s w₁).grows (congrArg (·.2.2) hr)
  obtain ⟨v₁, hgiven, hnext⟩ := Child.readStream_inStep h hread (hgrows.trans hlast)
  rw [hgiven]
  exact emit_inStep hnext hr hlast

theorem deliverTail_inStep (h : InStep host host' all w v)
    (hr : entry.deliverTail host.logged stream s w = (entry', s', w')) (hlast : w'.2 <+: all) :
    ∃ v', entry.deliverTail host'.logged stream s v = (entry', s', v') ∧
      InStep host host' all w' v' := emit_inStep h hr hlast

theorem flush_inStep (h : InStep host host' all w v)
    (hr : entry.flush host.logged w = (entry', w')) (hlast : w'.2 <+: all) :
    ∃ v', entry.flush host'.logged v = (entry', v') ∧ InStep host host' all w' v' := by
  simp only [flush] at hr ⊢
  split at hr
  · next hpending =>
    rw [if_pos hpending]
    rcases hflush : entry.child.flushStdin host.logged w with ⟨_ | _, child, w₁⟩
    · rw [hflush] at hr
      dsimp only at hr
      split at hr
      · next hkill =>
        rcases hsignal : child.signal host.logged .kill w₁ with ⟨result, w₂⟩
        rw [hsignal] at hr
        obtain ⟨rfl, rfl⟩ := Prod.mk.inj hr
        have hgrows := (child.tells_signal host w₁ .kill).grows (congrArg (·.2) hsignal)
        obtain ⟨v₁, hflushed, hnext⟩ := Child.flushStdin_inStep h hflush (hgrows.trans hlast)
        obtain ⟨v', hsent, hstep⟩ := Child.signal_inStep hnext hsignal hlast
        rw [hflushed]
        dsimp only
        rw [if_pos hkill, hsent]
        exact ⟨v', rfl, hstep⟩
      · next hkill =>
        obtain ⟨rfl, rfl⟩ := Prod.mk.inj hr
        obtain ⟨v', hflushed, hstep⟩ := Child.flushStdin_inStep h hflush hlast
        rw [hflushed]
        exact ⟨v', if_neg hkill, hstep⟩
    · rw [hflush] at hr
      obtain ⟨rfl, rfl⟩ := Prod.mk.inj hr
      obtain ⟨v', hflushed, hstep⟩ := Child.flushStdin_inStep h hflush hlast
      rw [hflushed]
      exact ⟨v', rfl, hstep⟩
  · next hpending =>
    obtain ⟨rfl, rfl⟩ := Prod.mk.inj hr
    rw [if_neg hpending]
    exact ⟨v, rfl, h⟩

theorem exchange_inStep (h : InStep host host' all w v)
    (hr : entry.exchange host.logged s w = (entry', s', w')) (hlast : w'.2 <+: all) :
    ∃ v', entry.exchange host'.logged s v = (entry', s', v') ∧ InStep host host' all w' v' := by
  simp only [exchange] at hr ⊢
  rcases hflush : entry.flush host.logged w with ⟨entry₁, w₁⟩
  rw [hflush] at hr
  dsimp only at hr
  rcases hdeliver : entry₁.deliver host.logged .stdout s w₁ with ⟨entry₂, s₂, w₂⟩
  rw [hdeliver] at hr
  have h₂ := ((entry₂.heeds_deliver host s₂ w₂ .stderr).grows (congrArg (·.2.2) hr)).trans hlast
  have h₁ := ((entry₁.heeds_deliver host s w₁ .stdout).grows (congrArg (·.2.2) hdeliver)).trans h₂
  obtain ⟨v₁, hflushed, hstep₁⟩ := flush_inStep h hflush h₁
  obtain ⟨v₂, hdelivered, hstep₂⟩ := deliver_inStep hstep₁ hdeliver h₂
  rw [hflushed]
  dsimp only
  rw [hdelivered]
  exact deliver_inStep hstep₂ hr hlast

theorem deliverRest_inStep (h : InStep host host' all w v)
    (hr : entry.deliverRest host.logged s w = (entry', s', w')) (hlast : w'.2 <+: all) :
    ∃ v', entry.deliverRest host'.logged s v = (entry', s', v') ∧
      InStep host host' all w' v' := by
  simp only [deliverRest] at hr ⊢
  rcases hstdout : entry.deliver host.logged .stdout s w with ⟨entry₁, s₁, w₁⟩
  rw [hstdout] at hr
  dsimp only at hr
  rcases hstderr : entry₁.deliver host.logged .stderr s₁ w₁ with ⟨entry₂, s₂, w₂⟩
  rw [hstderr] at hr
  dsimp only at hr
  rcases htail : entry₂.deliverTail host.logged .stdout s₂ w₂ with ⟨entry₃, s₃, w₃⟩
  rw [htail] at hr
  have h₃ := ((entry₃.heeds_deliverTail host s₃ w₃ .stderr).grows (congrArg (·.2.2) hr)).trans hlast
  have h₂ := ((entry₂.heeds_deliverTail host s₂ w₂ .stdout).grows (congrArg (·.2.2) htail)).trans h₃
  have h₁ := ((entry₁.heeds_deliver host s₁ w₁ .stderr).grows (congrArg (·.2.2) hstderr)).trans h₂
  obtain ⟨v₁, hfirst, hstep₁⟩ := deliver_inStep h hstdout h₁
  obtain ⟨v₂, hsecond, hstep₂⟩ := deliver_inStep hstep₁ hstderr h₂
  obtain ⟨v₃, hthird, hstep₃⟩ := deliverTail_inStep hstep₂ htail h₃
  rw [hfirst]
  dsimp only
  rw [hsecond]
  dsimp only
  rw [hthird]
  exact deliverTail_inStep hstep₃ hr hlast

/-- Handing over the exit makes no call, but it asks for the time of day. -/
theorem conclude_inStep (h : InStep host host' all w v) (status : ExitStatus) :
    entry.conclude host'.logged status s v =
      (entry.conclude host.logged status s w).map id (.map id fun _ => v) := by
  simp only [conclude, occasion, h.wallClock]
  rfl

theorem finish_inStep (h : InStep host host' all w v) {status : ExitStatus}
    (hr : entry.finish host.logged status s w = (entry', s', w')) (hlast : w'.2 <+: all) :
    ∃ v', entry.finish host'.logged status s v = (entry', s', v') ∧
      InStep host host' all w' v' := by
  simp only [finish] at hr ⊢
  rcases hrest : entry.deliverRest host.logged s w with ⟨entry₁, s₁, w₁⟩
  rw [hrest] at hr
  obtain rfl : w₁ = w' := congrArg (·.2.2) hr
  obtain ⟨v₁, hdelivered, hstep⟩ := deliverRest_inStep h hrest hlast
  rw [hdelivered]
  dsimp only at hr ⊢
  rw [conclude_inStep hstep, hr]
  exact ⟨v₁, rfl, hstep⟩

theorem poll_inStep (h : InStep host host' all w v)
    (hr : entry.poll host.logged s w = (entry', s', w')) (hlast : w'.2 <+: all) :
    ∃ v', entry.poll host'.logged s v = (entry', s', v') ∧ InStep host host' all w' v' := by
  simp only [poll] at hr ⊢
  rcases hexchange : entry.exchange host.logged s w with ⟨entry₁, s₁, w₁⟩
  rw [hexchange] at hr
  dsimp only at hr
  rcases hwait : entry₁.child.tryWait host.logged w₁ with ⟨result, child, w₂⟩
  rw [hwait] at hr
  have hlook : w₂.2 <+: w'.2 := by
    rcases result with _ | _ | status
    · obtain rfl : w₂ = w' := congrArg (·.2.2) hr
      exact List.prefix_rfl
    · obtain rfl : w₂ = w' := congrArg (·.2.2) hr
      exact List.prefix_rfl
    · have hheeds := (parts_heeds host).finish { entry₁ with child } s₁ w₂ status
      dsimp only at hr
      rw [hr] at hheeds
      exact hheeds.grows rfl
  have hask := ((entry₁.child.minds_tryWait host w₁).grows (congrArg (·.2.2) hwait)).trans
    (hlook.trans hlast)
  obtain ⟨v₁, hexchanged, hstep₁⟩ := exchange_inStep h hexchange hask
  obtain ⟨v₂, hwaited, hstep₂⟩ := Child.tryWait_inStep hstep₁ hwait (hlook.trans hlast)
  rw [hexchanged]
  dsimp only
  rw [hwaited]
  rcases result with _ | _ | status
  · obtain ⟨rfl, rfl, rfl⟩ := hr
    exact ⟨v₂, rfl, hstep₂⟩
  · obtain ⟨rfl, rfl, rfl⟩ := hr
    exact ⟨v₂, rfl, hstep₂⟩
  · dsimp only at hr ⊢
    exact finish_inStep hstep₂ hr hlast

end Entry

end

/-! ### From the beginning -/

variable {σ : Type} {host : Host ω} {host' : Host ω'} {w : ω} {v : ω'}

def Entry.calls (host : Host ω) (entry : Entry σ) (s : σ) (w : ω) : Log :=
  (entry.poll host.logged s (w, [])).2.2.2

def Child.signalCalls (host : Host ω) (signal : Signal) (child : Child) (w : ω) : Log :=
  (child.signal host.logged signal (w, [])).2.2

/-- A look adds its calls to the log, and does the same without one. -/
theorem Entry.poll_logged (host : Host ω) (entry : Entry σ) (s : σ) (w : ω) (log : Log) :
    entry.poll host.logged s (w, log) =
      let m := entry.poll host s w
      (m.1, m.2.1, m.2.2, log ++ entry.calls host s w) := by
  have hbefore := poll_hom (host.before log) entry.callbacks.carried_id s (w, [])
  have hforget := poll_hom host.forget entry.callbacks.carried_id s (w, [])
  rw [id, Log.before, List.append_nil] at hbefore
  rw [id] at hforget
  rw [hbefore, hforget]
  rfl

theorem Child.signal_logged (host : Host ω) (signal : Signal) (child : Child) (w : ω) (log : Log) :
    child.signal host.logged signal (w, log) =
      let r := child.signal host signal w
      (r.1, r.2, log ++ child.signalCalls host signal w) := by
  have hbefore := signal_hom (host.before log) signal child (w, [])
  have hforget := signal_hom host.forget signal child (w, [])
  rw [Log.before, List.append_nil] at hbefore
  rw [hbefore, hforget]
  rfl

theorem Shows.inStep {calls : Log} (h : Shows host host' calls w v) :
    InStep host host' calls (w, []) (v, []) := ⟨rfl, calls, rfl, h⟩

/-- **A look goes the same way on a machine that gives the same for its calls**, and makes the same
calls there. -/
theorem Entry.poll_shown (entry : Entry σ) (s : σ)
    (h : Shows host host' (entry.calls host s w) w v) :
    ∃ v', entry.poll host' s v = ((entry.poll host s w).1, (entry.poll host s w).2.1, v') ∧
      entry.calls host' s v = entry.calls host s w := by
  obtain ⟨v', hpoll, hstep⟩ := entry.poll_inStep h.inStep rfl List.prefix_rfl
  refine ⟨v'.1, ?_, ?_⟩
  · have hhere := poll_hom host.forget entry.callbacks.carried_id s (w, [])
    have hthere := poll_hom host'.forget entry.callbacks.carried_id s (v, [])
    rw [id] at hhere hthere
    rw [hhere, hthere, hpoll]
    rfl
  · rw [calls, hpoll]
    exact hstep.log

/-- A signal makes the same calls on a machine that gives the same for them. -/
theorem Child.signalCalls_shown (child : Child) (signal : Signal)
    (h : Shows host host' (child.signalCalls host signal w) w v) :
    child.signalCalls host' signal v = child.signalCalls host signal w := by
  obtain ⟨v', hsignal, hstep⟩ := child.signal_inStep h.inStep rfl List.prefix_rfl
  rw [signalCalls, hsignal]
  exact hstep.log

end Chaperone
