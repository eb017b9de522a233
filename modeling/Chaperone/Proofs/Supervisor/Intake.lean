import Chaperone.Proofs.Child.Reading
import Chaperone.Proofs.Supervisor.Members

/-!
# What one look takes from a stream

A look comes to the loop of a reading from several places.  It reads each output stream once, and
when it sees the end of the child a second time: either what is left is read as the exit is
recorded, and then the pipes are gone when the rest is handed over, or the exit was recorded before.

`Child.Draws d readings m m'` says that between two moments of a child no more came from the pipe
`d` than so many readings give.  The readings of consecutive steps add up (`Child.Draws.trans`), so
a look is accounted for step by step, by the number of streams that have the pipe
(`Entry.draws_poll`).
-/

namespace Chaperone

variable {σ ω : Type}

/-! ### Readings that add up -/

/-- From a pipe no more was received than so many readings give. -/
def Intake (d : Descriptor) (readings : Nat) (w w' : ω × Log) : Prop :=
  ∃ bytes, received (some d) w'.2 = received (some d) w.2 ++ bytes ∧
    bytes.length + readings ≤ readings * (maxPerCall + readChunk)

namespace Intake

variable {d : Descriptor} {n k : Nat} {w w' w'' : ω × Log}

theorem trans (h : Intake d n w w') (g : Intake d k w' w'') : Intake d (n + k) w w'' := by
  obtain ⟨bytes, hbytes, hlength⟩ := h
  obtain ⟨more, hmore, hlength'⟩ := g
  refine ⟨bytes ++ more, by rw [hmore, hbytes, List.append_assoc], ?_⟩
  rw [List.length_append, Nat.add_mul]
  omega

theorem mono (h : Intake d n w w') (hle : n ≤ k) : Intake d k w w' := by
  obtain ⟨bytes, hbytes, hlength⟩ := h
  obtain ⟨more, rfl⟩ := Nat.exists_eq_add_of_le hle
  have hmore : more * 1 ≤ more * (maxPerCall + readChunk) := Nat.mul_le_mul_left _ (by decide)
  refine ⟨bytes, hbytes, ?_⟩
  rw [Nat.add_mul]
  omega

/-- Calls that read nothing from the pipe. -/
theorem quiet {P : Call → Prop} (h : Only P w w')
    (hP : ∀ call, P call → call.payload (some d) = []) : Intake d 0 w w' :=
  ⟨[], by rw [h.received_eq hP, List.append_nil], by simp⟩

/-- Every reading gives less than one chunk more than enough. -/
theorem length_lt (h : Intake d n w w') (hn : 0 < n) :
    (received (some d) w'.2).length <
      (received (some d) w.2).length + n * (maxPerCall + readChunk) := by
  obtain ⟨bytes, hbytes, hlength⟩ := h
  rw [hbytes, List.length_append]
  omega

end Intake

namespace Child

def share (child : Child) (d : Descriptor) (stream : OutputStream) : Nat :=
  if child.pipe stream = some d then 1 else 0

def taps (child : Child) (d : Descriptor) : Nat := child.share d .stdout + child.share d .stderr

theorem taps_le_one {child : Child} (h : Apart child.pipe) (d : Descriptor) :
    child.taps d ≤ 1 := by
  by_cases hstdout : child.pipe .stdout = some d
  · rw [taps, share, share, if_pos hstdout, if_neg (h d hstdout)]
  · rw [taps, share, share, if_neg hstdout, Nat.zero_add]
    split <;> omega

theorem taps_of_released {child : Child} (h : ∀ stream, child.pipe stream = none)
    (d : Descriptor) : child.taps d = 0 := by
  simp [taps, share, h]

end Child

/-- Between two moments of a child no more came from a pipe than so many readings give, and no
stream came to another pipe. -/
structure Child.Draws (d : Descriptor) (readings : Nat) (m m' : Child × ω × Log) : Prop where
  intake : Intake d readings m.2 m'.2
  pipe : ∀ stream, m'.1.pipe stream = none ∨ m'.1.pipe stream = m.1.pipe stream

namespace Child.Draws

variable {d : Descriptor} {n k : Nat} {m m' m'' : Child × ω × Log}

theorem trans (h : Draws d n m m') (g : Draws d k m' m'') : Draws d (n + k) m m'' where
  intake := h.intake.trans g.intake
  pipe stream := by
    rcases g.pipe stream with hp | hp
    · exact Or.inl hp
    · exact hp ▸ h.pipe stream

theorem mono (h : Draws d n m m') (hle : n ≤ k) : Draws d k m m' := ⟨h.intake.mono hle, h.pipe⟩

/-- Calls that only give the child something. -/
theorem tells (hw : Only Call.Tells m.2 m'.2)
    (hchild : m'.1.withoutInput = m.1.withoutInput) : Draws d 0 m m' where
  intake := .quiet hw fun _ hcall => hcall.payload _
  pipe stream := Or.inr (Child.pipe_of_withoutInput hchild stream)

section
variable {child child' child'' : Child} {w w' w'' : ω × Log}

theorem share_le (h : Draws d n (child, w) (child', w')) (stream : OutputStream) :
    child'.share d stream ≤ child.share d stream := by
  rw [share, share]
  rcases h.pipe stream with hp | hp
  · have hnone : child'.pipe stream = none := hp
    rw [hnone, if_neg (by simp)]
    exact Nat.zero_le _
  · have hsame : child'.pipe stream = child.pipe stream := hp
    rw [hsame]

theorem taps_le (h : Draws d n (child, w) (child', w')) : child'.taps d ≤ child.taps d :=
  Nat.add_le_add (h.share_le .stdout) (h.share_le .stderr)

/-- A reading of each stream. -/
theorem both (h : Draws d (child.share d .stdout) (child, w) (child', w'))
    (g : Draws d (child'.share d .stderr) (child', w') (child'', w'')) :
    Draws d (child.taps d) (child, w) (child'', w'') :=
  (h.trans g).mono (Nat.add_le_add_left (h.share_le .stderr) _)

end

end Child.Draws

/-! ### Reading a stream -/

/-- A reading of a stream is a reading of its pipe and of no other. -/
theorem intake_of_drains {child : Child} {stream : OutputStream} {w w' : ω × Log}
    {bytes : List UInt8} (hcalls : Only (Call.Drains (child.pipe stream)) w w')
    (hreceived : received (child.pipe stream) w'.2 = received (child.pipe stream) w.2 ++ bytes)
    (hlength : bytes.length < maxPerCall + readChunk) (d : Descriptor) :
    Intake d (child.share d stream) w w' := by
  rw [Child.share]
  by_cases hd : child.pipe stream = some d
  · rw [if_pos hd]
    exact ⟨bytes, hd ▸ hreceived, by omega⟩
  · rw [if_neg hd]
    refine .quiet hcalls fun call hcall => hcall.payload ?_
    rintro d' hd' ⟨⟩
    exact hd hd'

namespace Child

variable (host : Host ω) (child : Child) (stream : OutputStream)

theorem length_readStream (w : ω) :
    (child.readStream host stream w).2.1.length <
      (child.residue stream).length + (maxPerCall + readChunk) := by
  simp only [readStream]
  split
  · exact Nat.lt_add_of_pos_right (by decide)
  · next d _ =>
    have hlength := length_drain host d (child.residue stream) w
    generalize drain host d (child.residue stream) 0 w = r at hlength ⊢
    obtain ⟨pause, bytes, w'⟩ := r
    cases pause <;> exact hlength

theorem length_keepRest (w : ω) :
    ((child.keepRest host stream w).1.residue stream).length <
      (child.residue stream).length + (maxPerCall + readChunk) := by
  simp only [keepRest]
  split
  · exact Nat.lt_add_of_pos_right (by decide)
  · next d _ =>
    rw [residue_withResidue]
    exact length_drain host d (child.residue stream) w

variable (d : Descriptor) (w : ω × Log)

theorem draws_readStream :
    Draws d (child.share d stream) (child, w)
      ((child.readStream host.logged stream w).2.2.1,
        (child.readStream host.logged stream w).2.2.2) := by
  obtain ⟨hcalls, bytes, hbytes, hreceived⟩ := child.readStream_spec stream host w
  have hlength := child.length_readStream host.logged stream w
  rw [hbytes, List.length_append] at hlength
  exact ⟨intake_of_drains hcalls hreceived (by omega) d,
    child.pipe_readStream_eq_or stream host.logged w⟩

theorem draws_keepRest :
    Draws d (child.share d stream) (child, w) (child.keepRest host.logged stream w) := by
  obtain ⟨hcalls, bytes, hbytes, hreceived⟩ := child.keepRest_spec host stream w
  have hlength := child.length_keepRest host.logged stream w
  rw [hbytes, residue_withResidue, List.length_append] at hlength
  exact ⟨intake_of_drains hcalls hreceived (by omega) d,
    fun other => Or.inr (child.pipe_keepRest host.logged stream w other)⟩

/-- As the exit is recorded, each stream is read once. -/
theorem draws_recordExit (status : ExitStatus) :
    Draws d (child.taps d) (child, w) (child.recordExit host.logged status w) := by
  have hstdout := child.draws_keepRest host .stdout d w
  have hreleased := (child.recordExit_child host.logged w status).2.2
  refine ⟨?_, fun stream => Or.inl (hreleased stream)⟩
  simp only [recordExit]
  generalize child.keepRest host.logged .stdout w = m at hstdout ⊢
  have hstderr := m.1.draws_keepRest host .stderr d m.2
  generalize m.1.keepRest host.logged .stderr m.2 = m' at hstderr ⊢
  have hrelease := tells_releasePipe host m'.1 .stdout m'.2
  generalize m'.1.releasePipe host.logged .stdout m'.2 = r at hrelease ⊢
  have hrelease' := tells_releasePipe host r.1 .stderr r.2
  generalize r.1.releasePipe host.logged .stderr r.2 = r' at hrelease' ⊢
  have hcalls := (hrelease.trans hrelease').trans (tells_closeStdin host r'.1 r'.2)
  exact (hstdout.both hstderr).intake.trans (.quiet hcalls fun _ hcall => hcall.payload _)

end Child

/-! ### The parts of a look -/

namespace Entry

def Draws (d : Descriptor) (readings : Nat) (m m' : Entry σ × σ × ω × Log) : Prop :=
  Child.Draws d readings (m.1.child, m.2.2) (m'.1.child, m'.2.2)

namespace Draws

variable {d : Descriptor} {n k : Nat} {m m' m'' : Entry σ × σ × ω × Log}

theorem trans (h : Draws d n m m') (g : Draws d k m' m'') : Draws d (n + k) m m'' :=
  Child.Draws.trans h g

theorem mono (h : Draws d n m m') (hle : n ≤ k) : Draws d k m m' := Child.Draws.mono h hle

theorem taps_le (h : Draws d n m m') : m'.1.child.taps d ≤ m.1.child.taps d :=
  Child.Draws.taps_le h

/-- A reading of each stream. -/
theorem both {entry entry' : Entry σ} {s s' : σ} {w w' : ω × Log}
    (h : Draws d (entry.child.share d .stdout) (entry, s, w) (entry', s', w'))
    (g : Draws d (entry'.child.share d .stderr) (entry', s', w') m'') :
    Draws d (entry.child.taps d) (entry, s, w) m'' := Child.Draws.both h g

end Draws

variable (host : Host ω) (entry : Entry σ) (s : σ) (w : ω × Log) (d : Descriptor)

theorem draws_flush :
    Draws d 0 (entry, s, w) ((entry.flush host.logged w).1, s, (entry.flush host.logged w).2) :=
  .tells (entry.tells_flush host w) (entry.flush_entry host.logged w).2

theorem draws_deliver (stream : OutputStream) :
    Draws d (entry.child.share d stream) (entry, s, w) (entry.deliver host.logged stream s w) := by
  rw [deliver_eq]
  have hread := entry.child.draws_readStream host stream d w
  generalize entry.child.readStream host.logged stream w = read at hread ⊢
  refine hread.trans (.tells (tells_emit host stream _ _ s _) ?_)
  dsimp only
  rw [withoutInput_emit, child_withDecoder]

theorem draws_deliverTail (stream : OutputStream) :
    Draws d 0 (entry, s, w) (entry.deliverTail host.logged stream s w) := by
  refine .tells (tells_emit host stream _ _ s w) ?_
  rw [deliverTail, withoutInput_emit, child_withDecoder]

theorem draws_exchange :
    Draws d (entry.child.taps d) (entry, s, w) (entry.exchange host.logged s w) := by
  have hflush := entry.draws_flush host s w d
  simp only [exchange]
  generalize entry.flush host.logged w = m at hflush ⊢
  have hstdout := m.1.draws_deliver host s m.2 d .stdout
  generalize m.1.deliver host.logged .stdout s m.2 = m' at hstdout ⊢
  have hstderr := m'.1.draws_deliver host m'.2.1 m'.2.2 d .stderr
  have htaps := hflush.taps_le
  exact (hflush.trans (hstdout.both hstderr)).mono ((Nat.zero_add _).trans_le hflush.taps_le)

/-- Handing over the rest reads each stream once more, if it is still there. -/
theorem draws_finish (status : ExitStatus) :
    Draws d (entry.child.taps d) (entry, s, w) (entry.finish host.logged status s w) := by
  have hstdout := entry.draws_deliver host s w d .stdout
  simp only [finish, deliverRest, conclude]
  generalize entry.deliver host.logged .stdout s w = m at hstdout ⊢
  have hstderr := m.1.draws_deliver host m.2.1 m.2.2 d .stderr
  generalize m.1.deliver host.logged .stderr m.2.1 m.2.2 = m' at hstderr ⊢
  have htail := m'.1.draws_deliverTail host m'.2.1 m'.2.2 d .stdout
  generalize m'.1.deliverTail host.logged .stdout m'.2.1 m'.2.2 = m'' at htail ⊢
  have htails := htail.trans (m''.1.draws_deliverTail host m''.2.1 m''.2.2 d .stderr)
  exact (hstdout.both hstderr).trans htails

/-- A question reads nothing. -/
theorem draws_reap (pid : Pid) :
    Draws d 0 (entry, s, w) (entry, s, (host.logged.reap pid w).2) where
  intake := .quiet (.one (.reap pid _) trivial rfl) fun _ hcall => Call.Asks.payload hcall _
  pipe _ := Or.inr rfl

/-- What is left is read as the exit is recorded, or else when the rest is handed over. -/
theorem draws_record_finish (status : ExitStatus) :
    let recorded := entry.child.recordExit host.logged status w
    Draws d (entry.child.taps d) (entry, s, w)
      ({ entry with child := recorded.1 }.finish host.logged status s recorded.2) := by
  intro recorded
  have hrecord : Draws d (entry.child.taps d) (entry, s, w)
      ({ entry with child := recorded.1 }, s, recorded.2) :=
    entry.child.draws_recordExit host d w status
  have hfinish := draws_finish host { entry with child := recorded.1 } s recorded.2 d status
  have hnone : recorded.1.taps d = 0 :=
    Child.taps_of_released (entry.child.recordExit_child host.logged w status).2.2 d
  exact (hrecord.trans hfinish).mono (by rw [hnone, Nat.add_zero])

/-- **A look** reads from a pipe twice for each stream that has it, at most. -/
theorem draws_poll :
    Draws d (2 * entry.child.taps d) (entry, s, w) (entry.poll host.logged s w) := by
  have hexchange := entry.draws_exchange host s w d
  simp only [poll]
  generalize entry.exchange host.logged s w = m at hexchange ⊢
  have htaps : m.1.child.taps d ≤ entry.child.taps d := hexchange.taps_le
  have hask := hexchange.trans (m.1.draws_reap host m.2.1 m.2.2 d m.1.child.pid)
  -- Each stream is read a second time only when the end is known, at one of two places.
  obtain ⟨status, -, ht⟩ | ⟨status, -, -, ht⟩ | ⟨-, -, ht⟩ :=
    m.1.child.tryWait_cases host.logged m.2.2
  · rw [ht]
    have hfinish := m.1.draws_finish host m.2.1 m.2.2 d status
    exact (hexchange.trans hfinish).mono (by omega)
  · rw [ht]
    have hrecord := m.1.draws_record_finish host m.2.1 (host.logged.reap m.1.child.pid m.2.2).2
      d status
    exact (hask.trans hrecord).mono (by omega)
  · rw [ht]
    have hlook : Draws d (2 * entry.child.taps d) (entry, s, w) _ := hask.mono (by omega)
    cases (host.logged.reap m.1.child.pid m.2.2).1 <;> exact hlook

/-- Of a child whose streams do not share a pipe, a look takes less than two readings may give from
each. -/
theorem received_poll_lt (hout : Apart entry.child.pipe) (stream : OutputStream) :
    (received (entry.child.pipe stream) (entry.poll host.logged s w).2.2.2).length <
      (received (entry.child.pipe stream) w.2).length + 2 * (maxPerCall + readChunk) := by
  cases hd : entry.child.pipe stream with
  | none =>
    rw [received_none, received_none]
    decide
  | some d =>
    have hpoll := entry.draws_poll host s w d
    have htaps := Child.taps_le_one hout d
    exact (hpoll.mono (show 2 * entry.child.taps d ≤ 2 by omega)).intake.length_lt (by decide)

end Entry

/-- **A child that writes without end cannot hold its supervisor**, whatever it does and whatever
its callbacks do.

Whoever is read and does not interrupt forever is read by a machine.  On every machine a reading is
a loop that ends; it takes, in order, exactly what its reads gave, which is less than one chunk more
than enough, and reports the end exactly when a read gave no bytes.  So whatever was done before, a
look at a child takes less than twice that from each of its streams. -/
theorem endless_output_is_bounded :
    (∀ {ρ : Type} (reader : Reader ρ) (d : Descriptor),
      reader.host.read d readChunk = reader.read) ∧
    (∀ {ω : Type} (host : Host ω) (d : Descriptor) (taken : List UInt8) (w : ω × Log),
      ∃ results, Reading host d taken 0 w results (drain host.logged d taken 0 w) ∧
        (results.flatMap ReadResult.payload).length < maxPerCall + readChunk) ∧
    ∀ {σ ω : Type} (host : Host ω) (s : σ) (w : ω) (actions : List (Action σ ω)),
      ∀ entry ∈ ((Session.start s w).run host actions).supervisor.entries,
        ∀ (s' : σ × Trace) (w' : ω × Log) (stream : OutputStream),
          (received (entry.child.pipe stream) (entry.poll host.logged s' w').2.2.2).length <
            (received (entry.child.pipe stream) w'.2).length + 2 * (maxPerCall + readChunk) := by
  refine ⟨Reader.read_host, drain_takes, ?_⟩
  intro σ ω host s w actions entry hentry s' w' stream
  have hfit := Session.fit_run host s w actions entry hentry
  exact entry.received_poll_lt host s' w' hfit.apart stream

/-! ### An example -/

def Reader.endless : Reader Bool where
  read ready :=
    if ready then (.bytes (List.replicate readChunk 121), false) else (.interrupted, true)
  length_read h := by
    split at h
    · cases h
      rw [List.length_replicate]
    · cases h
  settles ready := by
    cases ready with
    | true => exact ⟨0, by decide⟩
    | false => exact ⟨1, by decide⟩

/-- A look at a child that writes without end. -/
theorem endless_output_is_bounded_yes :
    Reader.endless.host.read 1 readChunk = Reader.endless.read ∧
      (∃ results, Reading Reader.endless.host 1 [] 0 (false, []) results
        (drain Reader.endless.host.logged 1 [] 0 (false, []))) ∧
      ∃ entry ∈ ((Session.start () false).run Reader.endless.host
          [.launch "/bin/yes" [] {} .none false]).supervisor.entries,
        entry.child.pipe .stdout = some 1 ∧
          let after := entry.poll Reader.endless.host.logged ((), []) (false, [])
          (received (some 1) after.2.2.2).length < 2 * (maxPerCall + readChunk) := by
  obtain ⟨hread, hdrain, hlook⟩ := endless_output_is_bounded
  obtain ⟨results, hreading, -⟩ := hdrain Reader.endless.host 1 [] (false, [])
  have hpipes : ((Session.start () false).run Reader.endless.host
      [.launch "/bin/yes" [] {} .none false]).supervisor.entries.map (·.child.pipe .stdout) =
      [some 1] := by
    cbv
  obtain ⟨entry, hentry, hpipe⟩ := List.mem_map.mp (hpipes ▸ List.mem_singleton_self (some 1))
  have hbound := hlook Reader.endless.host () false _ entry hentry ((), []) (false, []) .stdout
  rw [hpipe] at hbound
  refine ⟨hread Reader.endless 1, ⟨results, hreading⟩, entry, hentry, hpipe, ?_⟩
  simpa [received] using hbound

end Chaperone
