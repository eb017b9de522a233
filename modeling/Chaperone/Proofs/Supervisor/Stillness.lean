import Chaperone.Proofs.Supervisor.InStep
import Chaperone.Proofs.Supervisor.Members

/-!
# Looks that find nothing

A look may find nothing to do: no output is there, the input takes nothing, and no answer reports an
end (`Call.Uneventful`).  Such a look changes nothing, whatever the entries of the registry hold
back: input that waits, the end of the input that is put off, the first bytes of a character.

* `drain_still`, `Child.flushStdin_still`: the loops give up at the first call that would block.
* `Entry.still_poll`: one look leaves the entry and what callbacks share.
* `Session.nothing_changes`: so does any number of looks at all children, with pauses between them.

The calls of a look form a prefix of what is in the log later, so that nothing comes of all of them
is used part by part (`Only.split`).
-/

namespace Chaperone

variable {σ ω : Type}

/-! ### Calls of which nothing comes -/

/-- A call of which nothing comes: a pipe has nothing and takes nothing, and no end is reported.  It
may be interrupted. -/
def Call.Uneventful : Call → Prop
  | .read _ _ result => result = .wouldBlock ∨ result = .interrupted
  | .write _ _ result => result = .wouldBlock ∨ result = .interrupted
  | .reap _ result => result.status? = none
  | .await _ result => (ReapResult.ofAwait result).status? = none
  | _ => True

/-- A call that sees whether there is something to do, or lets time pass.  It sends no signal and
releases no pipe. -/
def Call.Probes : Call → Prop
  | .read _ _ _ | .write _ _ _ | .reap _ _ | .sleep _ | .now _ => True
  | _ => False

/-! ### The two loops -/

/-- A drain of a pipe that has nothing gives what it was given. -/
theorem drain_still (host : Host ω) (d : Descriptor) (taken : List UInt8) (count : Nat)
    (w : ω × Log) (h : Only Call.Uneventful w (drain host.logged d taken count w).2.2) :
    (drain host.logged d taken count w).1 = .later ∧
      (drain host.logged d taken count w).2.1 = taken ∧
      Only Call.Probes w (drain host.logged d taken count w).2.2 := by
  -- In all cases but two the first read gives something or fails, and the log has this call.
  fun_induction drain host.logged d taken count w with
  | case1 taken count w w' hr | case2 taken count w b chunk w' hr
  | case6 taken count w cause w' hr =>
    rcases h.of_one (log_of_read hr) with hresult | hresult <;> cases hresult
  | case3 taken count w b chunk w' hr count' hcap ih =>
    have hfirst := (h.split ((drains_of_read hr).grows rfl) ((drain_spec host ..).1.grows rfl)).1
    rcases hfirst.of_one (log_of_read hr) with hresult | hresult <;> cases hresult
  | case4 taken count w w' hr =>
    exact ⟨rfl, rfl, .one (.read d readChunk .wouldBlock) trivial (log_of_read hr)⟩
  | case5 taken count w w' hr ih =>
    have hrest := (h.split ((drains_of_read hr).grows rfl) ((drain_spec host ..).1.grows rfl)).2
    obtain ⟨hpause, hbytes, hprobes⟩ := ih hrest
    have hprobe : Only Call.Probes w w' :=
      .one (.read d readChunk .interrupted) trivial (log_of_read hr)
    exact ⟨hpause, hbytes, hprobe.trans hprobes⟩

/-- A pipe that takes nothing leaves the queue. -/
theorem Feeding.still {d : Descriptor} {queue left : List UInt8} {log : Log}
    (h : Feeding d queue log left) (hcalls : ∀ call ∈ log, call.Uneventful) :
    left = queue ∧ ∀ call ∈ log, call.Probes := by
  induction h with
  | stop queue => exact ⟨rfl, by simp⟩
  | @write queue left result log hne h ih =>
    obtain ⟨hresult, hcalls⟩ := List.forall_mem_cons.mp hcalls
    obtain ⟨hleft, hprobes⟩ := ih hcalls
    have hcount : result.count = 0 := by
      rcases hresult with rfl | rfl <;> rfl
    rw [hcount, List.drop_zero] at hleft
    exact ⟨hleft, List.forall_mem_cons.mpr ⟨trivial, hprobes⟩⟩

namespace Child

/-- A flush whose pipe takes nothing leaves the child. -/
theorem flushStdin_still (host : Host ω) {child : Child} (hsound : child.Sound)
    (hne : child.pendingInput ≠ []) {w : ω × Log}
    (h : Only Call.Uneventful w (child.flushStdin host.logged w).2.2) :
    (child.flushStdin host.logged w).1 = .ok () ∧
      (child.flushStdin host.logged w).2.1 = child ∧
      Only Call.Probes w (child.flushStdin host.logged w).2.2 := by
  obtain ⟨d, hd⟩ := Option.isSome_iff_exists.mp (hsound.queued hne)
  obtain ⟨calls, hlog, hflushed⟩ := flushStdin_spec host child w hd
  generalize child.flushStdin host.logged w = r at h hlog hflushed ⊢
  obtain ⟨result, child', w'⟩ := r
  have hcalls := h.of_log hlog
  cases hflushed with
  | waits hfeeding hleft hlast =>
    obtain ⟨rfl, hprobes⟩ := hfeeding.still hcalls
    exact ⟨rfl, rfl, calls, hlog, hprobes⟩
  | empties hfeeding => exact absurd (hfeeding.still hcalls).1.symm hne
  | ends hfeeding =>
    exact absurd (hfeeding.still (List.forall_mem_append.mp hcalls).1).1.symm hne
  | fails hfeeding hlast hcause =>
    have hresult := (List.forall_mem_append.mp hcalls).1 _ (List.mem_of_getLast? hlast)
    rcases hresult with rfl | rfl <;> cases hcause

/-- A read of a stream that has nothing gives nothing and leaves the child. -/
theorem readStream_still (host : Host ω) {child : Child} {stream : OutputStream}
    (hresidue : child.residue stream = []) {w : ω × Log}
    (h : Only Call.Uneventful w (child.readStream host.logged stream w).2.2.2) :
    (child.readStream host.logged stream w).2.1 = [] ∧
      (child.readStream host.logged stream w).2.2.1 = child ∧
      Only Call.Probes w (child.readStream host.logged stream w).2.2.2 := by
  have hchild : child.withResidue [] stream = child := by
    rw [← hresidue]
    cases stream <;> rfl
  simp only [readStream, hchild, hresidue] at h ⊢
  cases hd : child.pipe stream with
  | none => exact ⟨rfl, rfl, .refl _ _⟩
  | some d =>
    simp only [hd] at h ⊢
    have hdrain := drain_still host d [] 0 w
    have hspec := (drain_spec host d [] 0 w).1
    generalize drain host.logged d [] 0 w = r at h hdrain hspec ⊢
    obtain ⟨pause, bytes, w'⟩ := r
    cases pause with
    | later =>
      obtain ⟨-, hbytes, hprobes⟩ := hdrain h
      exact ⟨hbytes, rfl, hprobes⟩
    | ended | failed =>
      have hclose : w'.2 <+: (host.logged.close d w').2 := List.prefix_append _ _
      cases (hdrain (h.split (hspec.grows rfl) hclose).1).1

/-- A question that reports no end leaves the child. -/
theorem tryWait_still (host : Host ω) (child : Child) (w : ω × Log)
    (hstatus : child.status = none) (h : Only Call.Uneventful w (child.tryWait host.logged w).2.2) :
    (∀ status, (child.tryWait host.logged w).1 ≠ .ok (some status)) ∧
      (child.tryWait host.logged w).2.1 = child ∧
      Only Call.Probes w (child.tryWait host.logged w).2.2 := by
  have hreap : (host.logged.reap child.pid w).2.2 =
      w.2 ++ [.reap child.pid (host.logged.reap child.pid w).1] := rfl
  cases hr : (host.logged.reap child.pid w).1.status? with
  | none =>
    rw [child.tryWait_of_silence host.logged w hstatus hr]
    refine ⟨?_, rfl, .one (.reap child.pid _) trivial hreap⟩
    intro status hsilence
    cases hresult : (host.logged.reap child.pid w).1 <;>
      simp [hresult, ReapResult.silence] at hsilence
  | some status =>
    rw [child.tryWait_of_report host.logged w hstatus hr] at h
    have hrecorded := empties_recordExit host status child (host.logged.reap child.pid w).2
    have hfirst := (h.split ⟨_, hreap.symm⟩ (hrecorded.grows rfl)).1
    cases hr.symm.trans (hfirst.of_one hreap)

end Child

/-! ### One look -/

namespace Entry

/-- Between two moments of an entry calls are made, and if nothing comes of them nothing has
changed. -/
structure Still (m m' : Entry σ × σ × ω × Log) : Prop where
  grows : m.2.2.2 <+: m'.2.2.2
  still : m.1.child.Sound → m.1.child.status = none → Only Call.Uneventful m.2.2 m'.2.2 →
    m'.1 = m.1 ∧ m'.2.1 = m.2.1 ∧ Only Call.Probes m.2.2 m'.2.2

theorem Still.trans {m m' m'' : Entry σ × σ × ω × Log} (h : Still m m') (g : Still m' m'') :
    Still m m'' := by
  refine ⟨h.grows.trans g.grows, ?_⟩
  intro hsound hstatus hcalls
  obtain ⟨hfirst, hrest⟩ := hcalls.split h.grows g.grows
  obtain ⟨hentry, hs, hprobes⟩ := h.still hsound hstatus hfirst
  rw [← hentry] at hsound hstatus
  obtain ⟨hentry', hs', hprobes'⟩ := g.still hsound hstatus hrest
  exact ⟨hentry'.trans hentry, hs'.trans hs, hprobes.trans hprobes'⟩

variable (host : Host ω) (entry : Entry σ) (s : σ) (w : ω × Log)

theorem still_flush :
    Still (entry, s, w) ((entry.flush host.logged w).1, s, (entry.flush host.logged w).2) := by
  refine ⟨(entry.tells_flush host w).grows rfl, ?_⟩
  intro hsound _ hcalls
  by_cases hne : entry.child.pendingInput = []
  · simp only [flush, Child.hasPendingInput, hne, List.isEmpty_nil, Bool.not_true,
      Bool.false_eq_true, if_false]
    exact ⟨trivial, trivial, .refl _ _⟩
  · have hpending : entry.child.hasPendingInput = true := by
      simp [Child.hasPendingInput, hne]
    have hflush := Child.flushStdin_still host hsound hne (w := w)
    have htells := Child.tells_flushStdin host entry.child w
    simp only [flush, hpending, if_true] at hcalls ⊢
    generalize entry.child.flushStdin host.logged w = r at hcalls hflush htells ⊢
    obtain ⟨result, child, w'⟩ := r
    cases result with
    | ok =>
      obtain ⟨-, rfl, hprobes⟩ := hflush hcalls
      exact ⟨rfl, trivial, hprobes⟩
    | error cause =>
      -- A flush that fails makes an eventful call, whether or not the child is killed for it.
      have hkill := (child.tells_signal host w' .kill).grows rfl
      have hwritten : Only Call.Uneventful w w' := by
        dsimp only at hcalls
        split at hcalls
        · exact (hcalls.split (htells.grows rfl) hkill).1
        · exact hcalls
      cases (hflush hwritten).1

theorem still_deliver (stream : OutputStream) :
    Still (entry, s, w) (entry.deliver host.logged stream s w) := by
  refine ⟨(heeds_deliver host entry s w stream).grows rfl, ?_⟩
  intro hsound hstatus hcalls
  have hexited : entry.child.exited = false := by
    rw [Child.exited, hstatus]
    rfl
  have hspec := (entry.child.readStream_spec stream host w).1
  have hread : Only Call.Uneventful w (entry.child.readStream host.logged stream w).2.2.2 := by
    rw [deliver_eq] at hcalls
    exact (hcalls.split (hspec.grows rfl) ((tells_emit host ..).grows rfl)).1
  obtain ⟨hbytes, hchild, hprobes⟩ :=
    Child.readStream_still host (hsound.unread hexited stream) hread
  simp only [deliver, hbytes, hchild, List.isEmpty_nil, if_true]
  exact ⟨trivial, trivial, hprobes⟩

theorem still_exchange : Still (entry, s, w) (entry.exchange host.logged s w) :=
  ((entry.still_flush host s w).trans (still_deliver host _ s _ .stdout)).trans
    (still_deliver host _ _ _ .stderr)

/-- **A look that finds nothing** leaves the entry and what callbacks share. -/
theorem still_poll : Still (entry, s, w) (entry.poll host.logged s w) := by
  refine ⟨(heeds_poll host entry s w).grows rfl, ?_⟩
  intro hsound hstatus hcalls
  have hexchange := entry.still_exchange host s w
  simp only [poll] at hcalls ⊢
  generalize entry.exchange host.logged s w = m at hexchange hcalls ⊢
  have hask := Child.tryWait_still host m.1.child m.2.2
  have hgrows := (m.1.child.minds_tryWait host m.2.2).grows rfl
  generalize m.1.child.tryWait host.logged m.2.2 = r at hcalls hask hgrows ⊢
  obtain ⟨result, child, w'⟩ := r
  have hasked : Only Call.Uneventful w w' := by
    rcases result with cause | _ | status
    · exact hcalls
    · exact hcalls
    · have hfinish := (parts_heeds host).finish { m.1 with child } m.2.1 w' status
      dsimp only at hcalls
      generalize finish _ _ _ _ _ = last at hcalls hfinish
      exact (hcalls.split (hexchange.grows.trans hgrows) (hfinish.grows rfl)).1
  obtain ⟨hfirst, hrest⟩ := hasked.split hexchange.grows hgrows
  obtain ⟨hentry, hs, hprobes⟩ := hexchange.still hsound hstatus hfirst
  have hnone : m.1.child.status = none := (congrArg (·.child.status) hentry).trans hstatus
  obtain ⟨hresult, hchild, hprobes'⟩ := hask hnone hrest
  subst hchild
  rcases result with cause | _ | status
  · exact ⟨hentry, hs, hprobes.trans hprobes'⟩
  · exact ⟨hentry, hs, hprobes.trans hprobes'⟩
  · exact absurd rfl (hresult status)

end Entry

/-! ### All children -/

theorem Supervisor.grows_pollAll (host : Host ω) (entries : List (Entry σ)) (s : σ)
    (w : ω × Log) : w.2 <+: (pollAll host.logged entries s w).2.2.2 := by
  induction entries generalizing s w with
  | nil => exact List.prefix_refl _
  | cons entry rest ih => exact (entry.still_poll host s w).grows.trans (ih _ _)

/-- Looks at several children that find nothing leave all of them. -/
theorem Supervisor.pollAll_still (host : Host ω) {entries : List (Entry σ)}
    (hsound : ∀ entry ∈ entries, entry.child.Sound)
    (hstatus : ∀ entry ∈ entries, entry.child.status = none) (s : σ) (w : ω × Log)
    (h : Only Call.Uneventful w (pollAll host.logged entries s w).2.2) :
    (pollAll host.logged entries s w).1 = entries ∧ (pollAll host.logged entries s w).2.1 = s ∧
      Only Call.Probes w (pollAll host.logged entries s w).2.2 := by
  induction entries generalizing s w with
  | nil => exact ⟨rfl, rfl, .refl _ _⟩
  | cons entry rest ih =>
    obtain ⟨hsound, hsounds⟩ := List.forall_mem_cons.mp hsound
    obtain ⟨hstatus, hstatuses⟩ := List.forall_mem_cons.mp hstatus
    have hpoll := entry.still_poll host s w
    simp only [pollAll] at h ⊢
    generalize entry.poll host.logged s w = m at hpoll h ⊢
    obtain ⟨entry', s', w'⟩ := m
    obtain ⟨hfirst, hrest⟩ := h.split hpoll.grows (grows_pollAll host rest s' w')
    obtain ⟨rfl, rfl, hprobes⟩ := hpoll.still hsound hstatus hfirst
    obtain ⟨hentries, hs, hprobes'⟩ := ih hsounds hstatuses s' w' hrest
    exact ⟨congrArg (entry' :: ·) hentries, hs, hprobes.trans hprobes'⟩

namespace Session

/-- What a caller does who only watches: it looks, pauses and reads the clock, and the machine goes
on meanwhile. -/
def Watches (action : Action σ ω) : Prop :=
  IsWaitStep action ∨ ∃ change : ω → ω, action = .elsewhere fun s w => (s, change w)

def leavesSome (host : Host ω) (session : Session σ ω) : Bool :=
  (session.supervisor.poll host.logged session.shared session.machine).1

variable {session : Session σ ω}

structure Kept (session : Session σ ω) : Prop where
  valid : session.Valid
  fit : session.Fit

theorem Kept.act (h : session.Kept) (host : Host ω) (action : Action σ ω) :
    (session.act host action).Kept :=
  ⟨(act_spec h.valid host action).2, h.fit.act host action⟩

theorem Kept.run (h : session.Kept) (host : Host ω) (actions : List (Action σ ω)) :
    (session.run host actions).Kept :=
  ⟨valid_run h.valid host actions, h.fit.run host actions⟩

theorem grows_act (host : Host ω) (session : Session σ ω) {step : Action σ ω}
    (hstep : Watches step) : session.machine.2 <+: (session.act host step).machine.2 := by
  rcases hstep with (rfl | rfl | ⟨microseconds, rfl⟩) | ⟨change, rfl⟩
  · exact Supervisor.grows_pollAll host session.supervisor.entries session.shared session.machine
  · exact List.prefix_append _ _
  · exact List.prefix_append _ _
  · exact List.prefix_refl _

theorem grows_run (host : Host ω) (session : Session σ ω) {steps : List (Action σ ω)}
    (hsteps : ∀ step ∈ steps, Watches step) :
    session.machine.2 <+: (session.run host steps).machine.2 := by
  induction steps generalizing session with
  | nil => exact List.prefix_refl _
  | cons step steps ih =>
    obtain ⟨hstep, hsteps⟩ := List.forall_mem_cons.mp hsteps
    exact (grows_act host session hstep).trans (ih (session.act host step) hsteps)

/-- **A look at every child that finds nothing** leaves the registry and what callbacks share, and
says whether there are any children. -/
theorem Kept.poll_still (h : session.Kept) (host : Host ω)
    (hcalls : Only Call.Uneventful session.machine (session.poll host).machine) :
    session.poll host = { session with machine := (session.poll host).machine } ∧
      Only Call.Probes session.machine (session.poll host).machine ∧
      (session.leavesSome host = true ↔ session.supervisor.entries ≠ []) := by
  have hattends : ∀ entry ∈ session.supervisor.entries, ∃ n, Attends n entry := by
    intro entry hentry
    exact exists_of_forall₂ h.valid.attends.flip hentry
  have hleft : session.supervisor.entries.filter (fun entry => !entry.finished) =
      session.supervisor.entries := by
    refine List.filter_eq_self.mpr fun entry hentry => ?_
    obtain ⟨n, hn⟩ := hattends entry hentry
    rw [hn.finished]
    rfl
  have hstatus : ∀ entry ∈ session.supervisor.entries, entry.child.status = none := by
    intro entry hentry
    obtain ⟨n, hn⟩ := hattends entry hentry
    exact hn.status
  obtain ⟨hentries, hs, hprobes⟩ := Supervisor.pollAll_still host
    (fun entry hentry => (h.fit entry hentry).sound) hstatus session.shared session.machine hcalls
  refine ⟨?_, hprobes, ?_⟩
  · simp only [poll, Supervisor.poll, hentries, hs, hleft]
  · simp only [leavesSome, Supervisor.poll, hentries, hleft]
    simp

/-- One step of a caller who watches. -/
theorem Kept.act_still (h : session.Kept) (host : Host ω) {step : Action σ ω}
    (hstep : Watches step)
    (hcalls : Only Call.Uneventful session.machine (session.act host step).machine) :
    (∃ machine, session.act host step = { session with machine }) ∧
      Only Call.Probes session.machine (session.act host step).machine := by
  rcases hstep with (rfl | rfl | ⟨microseconds, rfl⟩) | ⟨change, rfl⟩
  · obtain ⟨hsame, hprobes, -⟩ := h.poll_still host hcalls
    exact ⟨⟨_, hsame⟩, hprobes⟩
  · exact ⟨⟨_, rfl⟩, .one (.now (host.now session.machine.1).1) trivial rfl⟩
  · exact ⟨⟨_, rfl⟩, .one (.sleep microseconds) trivial rfl⟩
  · exact ⟨⟨_, rfl⟩, .of_eq _ rfl⟩

/-- Any number of steps of a caller who watches. -/
theorem Kept.run_still (h : session.Kept) (host : Host ω) {steps : List (Action σ ω)}
    (hsteps : ∀ step ∈ steps, Watches step)
    (hcalls : Only Call.Uneventful session.machine (session.run host steps).machine) :
    (∃ machine, session.run host steps = { session with machine }) ∧
      Only Call.Probes session.machine (session.run host steps).machine := by
  induction steps generalizing session with
  | nil => exact ⟨⟨_, rfl⟩, .refl _ _⟩
  | cons step steps ih =>
    obtain ⟨hstep, hsteps⟩ := List.forall_mem_cons.mp hsteps
    have hfirst := grows_act host session hstep
    obtain ⟨hone, hmore⟩ := hcalls.split hfirst (grows_run host (session.act host step) hsteps)
    obtain ⟨⟨machine, hact⟩, hprobes⟩ := h.act_still host hstep hone
    obtain ⟨⟨last, hrun⟩, hprobes'⟩ := ih (h.act host step) hsteps hmore
    refine ⟨⟨last, ?_⟩, hprobes.trans hprobes'⟩
    refine hrun.trans ?_
    rw [hact]

/-- **While nothing happens, nothing changes**, however often a caller looks and whatever it did
before.  The registry is as it was: its entries, in their order, with all that they hold back, and
their callbacks.  No callback has run, no signal was sent and no pipe was released, and each look
says that children are left exactly if there are any. -/
theorem nothing_changes (host : Host ω) (s : σ) (w : ω) (actions steps : List (Action σ ω))
    (hsteps : ∀ step ∈ steps, Watches step)
    (hcalls : Only Call.Uneventful ((start s w).run host actions).machine
      (((start s w).run host actions).run host steps).machine) :
    let before := (start s w).run host actions
    let after := before.run host steps
    after = { before with machine := after.machine } ∧
      Only Call.Probes before.machine after.machine ∧
      ∀ earlier later, steps = earlier ++ .poll :: later →
        ((before.run host earlier).leavesSome host = true ↔ before.supervisor.entries ≠ []) := by
  intro before after
  have hkept : before.Kept := ⟨valid_run (valid_start s w) host actions, fit_run host s w actions⟩
  obtain ⟨⟨machine, hsame⟩, hprobes⟩ := hkept.run_still host hsteps hcalls
  refine ⟨?_, hprobes, ?_⟩
  · change before.run host steps = { before with machine := (before.run host steps).machine }
    rw [hsame]
  · rintro earlier later rfl
    obtain ⟨hearlier, hlater⟩ := List.forall_mem_append.mp hsteps
    obtain ⟨hpoll, hlater⟩ := List.forall_mem_cons.mp hlater
    have hrun : before.run host (earlier ++ .poll :: later) =
        ((before.run host earlier).act host .poll).run host later := List.foldl_append
    rw [hrun] at hcalls
    have hlook := grows_act host (before.run host earlier) hpoll
    have hmore := grows_run host ((before.run host earlier).act host .poll) hlater
    obtain ⟨hfirst, hrest⟩ := hcalls.split (grows_run host before hearlier) (hlook.trans hmore)
    obtain ⟨⟨_, hunchanged⟩, -⟩ := hkept.run_still host hearlier hfirst
    have hleft :=
      ((hkept.run host earlier).poll_still host (hrest.split hlook hmore).1).2.2
    rw [hleft, hunchanged]

end Session

/-! ### An example -/

/-- The supervisor of one program that has closed its standard error. -/
def Host.muted : Host Lone :=
  { Host.lone with
    read := fun d n w => if d = 2 then (.bytes [], w) else Host.lone.read d n w
    patience_read := by
      intro d n w w' h
      split at h
      · cases h
      · exact Host.lone.patience_read h
    length_read := by
      intro d n w chunk w' h
      split at h
      · cases h
        exact Nat.zero_le _
      · exact Host.lone.length_read h }

/-- A session with a program that took half of its input and has written two of the three bytes of a
character. -/
def Session.halfway : Session Unit Lone :=
  (start () ⟨[.wrote 1, .wouldBlock, .wouldBlock, .interrupted], [226, 130], true⟩).run .muted [
    .launch "/bin/cat" [] {} {
      Memory := Unit
      memory := ()
      onStarted := some fun _ memory s => .write "ab" true fun _ => .done (memory, s)
      onStdout := some fun _ _ memory s => .done (memory, s) } false,
    .poll]

/-- What is held back there is held back after two more looks. -/
theorem Session.nothing_changes_halfway :
    let after := halfway.run .muted [.poll, .sleep 10000, .poll]
    (halfway.supervisor.entries.map fun entry =>
        (entry.child.pendingInput, entry.child.closeWhenFlushed, entry.child.stderr,
          entry.stdoutDecoder.pending)) = [([98], true, none, [226, 130])] ∧
      Only Call.Uneventful halfway.machine after.machine ∧
      after = { halfway with machine := after.machine } ∧ halfway.leavesSome .muted = true := by
  have hheld : (halfway.supervisor.entries.map fun entry =>
      (entry.child.pendingInput, entry.child.closeWhenFlushed, entry.child.stderr,
        entry.stdoutDecoder.pending)) = [([98], true, none, [226, 130])] := by
    cbv
  have hlog : (halfway.run .muted [.poll, .sleep 10000, .poll]).machine.2 =
      halfway.machine.2 ++ [
        .write 0 [98] .interrupted, .write 0 [98] .wouldBlock, .read 1 readChunk .wouldBlock,
        .reap 1 .running, .sleep 10000,
        .write 0 [98] .wouldBlock, .read 1 readChunk .wouldBlock, .reap 1 .running] := by
    cbv
  have hcalls : Only Call.Uneventful halfway.machine
      (halfway.run .muted [.poll, .sleep 10000, .poll]).machine := by
    refine ⟨_, hlog, ?_⟩
    simp [Call.Uneventful, ReapResult.status?]
  obtain ⟨hsame, -, hleft⟩ := nothing_changes .muted () _ _ [.poll, .sleep 10000, .poll]
    (by simp [Watches, IsWaitStep]) hcalls
  refine ⟨hheld, hcalls, hsame, (hleft [] [.sleep 10000, .poll] rfl).mpr ?_⟩
  intro hnone
  have hnil : halfway.supervisor.entries = [] := hnone
  rw [hnil] at hheld
  cases hheld

end Chaperone
