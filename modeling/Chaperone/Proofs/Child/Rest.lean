import Chaperone.Proofs.Child.Exit

/-!
# What becomes of the output that waits in a pipe at the exit

When the exit of a child is recorded, what waits in its output pipes is read and kept for the next
read, and the pipes are released.  But the reading is the one that `maxPerCall` bounds, and no other
read follows.  So all that waits is kept if it is no longer than that, and of a longer output the
end is lost (`output_kept_at_exit`).

What waits in a pipe is not something that a `Host` shows.  `Pipes host` says what it is: a queue
that reads take bytes from, and that may grow at any time.
-/

namespace Chaperone

variable {ω : Type}

/-- What waits in the pipes of a machine on which no read fails. -/
structure Pipes (host : Host ω) where
  content : Descriptor → ω → List UInt8
  /-- A read takes bytes from the front.  More may have come in the meantime. -/
  read_bytes : ∀ {d n w chunk w'}, host.read d n w = (.bytes chunk, w') →
    ∃ more, content d w ++ more = chunk ++ content d w'
  /-- A read takes no bytes only when nothing waits. -/
  read_end : ∀ {d n w w'}, 0 < n → host.read d n w = (.bytes [], w') → content d w = []
  read_block : ∀ {d n w w'}, host.read d n w = (.wouldBlock, w') → content d w = []
  read_interrupted : ∀ {d n w w'}, host.read d n w = (.interrupted, w') →
    content d w <+: content d w'
  read_failed : ∀ {d n w cause w'}, host.read d n w ≠ (.failed cause, w')
  /-- Reading from one pipe takes nothing from another. -/
  read_other : ∀ {d d' n w}, d' ≠ d → content d' w <+: content d' (host.read d n w).2

/-- What was taken from the front and what is left begin with what waited. -/
theorem take_of_append_eq {all more bytes rest : List UInt8} {n : Nat}
    (h : all ++ more = bytes ++ rest) (hn : n ≤ all.length) (hbytes : bytes.length ≤ n) :
    all.take n = bytes ++ rest.take (n - bytes.length) := by
  have hall : (all ++ more).take n = all.take n := List.take_append_of_le_length hn
  rw [← hall, h, List.take_append, List.take_of_length_le hbytes]

namespace Pipes

variable {host : Host ω} (pipes : Pipes host)

/-- A read takes all that waits, as far as it is asked for. -/
def Full : Prop :=
  ∀ {d n w chunk w'}, host.read d n w = (.bytes chunk, w') →
    min n (pipes.content d w).length ≤ chunk.length

/-! ### One reading -/

/-- What a reading takes comes from the front, too.  It stops only when nothing is left or enough
was taken. -/
theorem drain_front (d : Descriptor) (taken : List UInt8) (count : Nat) (w : ω) :
    ∃ bytes more, (drain host d taken count w).2.1 = taken ++ bytes ∧
      pipes.content d w ++ more = bytes ++ pipes.content d (drain host d taken count w).2.2 ∧
      (maxPerCall ≤ count + bytes.length ∨ pipes.content d w <+: bytes) := by
  fun_induction drain host d taken count w with
  | case1 taken count w w' hr =>
    obtain ⟨more, hmore⟩ := pipes.read_bytes hr
    have hnil : pipes.content d w = [] := pipes.read_end (by decide) hr
    exact ⟨[], more, (List.append_nil _).symm, hmore, Or.inr (by simp [hnil])⟩
  | case2 taken count w b chunk w' hr count' hcap =>
    obtain ⟨more, hmore⟩ := pipes.read_bytes hr
    exact ⟨b :: chunk, more, rfl, hmore, Or.inl hcap⟩
  | case3 taken count w b chunk w' hr count' hcap ih =>
    obtain ⟨more, hmore⟩ := pipes.read_bytes hr
    obtain ⟨bytes, rest, hbytes, hrest, hstop⟩ := ih
    refine ⟨b :: chunk ++ bytes, more ++ rest, ?_, ?_, ?_⟩
    · rw [hbytes, List.append_assoc]
    · rw [← List.append_assoc, hmore, List.append_assoc, hrest, List.append_assoc]
    · rcases hstop with hstop | hstop
      · refine Or.inl ?_
        simp only [List.length_append, List.length_cons]
        omega
      · refine Or.inr ((List.prefix_append _ more).trans ?_)
        rw [hmore]
        exact (List.prefix_append_right_inj _).mpr hstop
  | case4 taken count w w' hr =>
    have hnil := pipes.read_block hr
    exact ⟨[], pipes.content d w', (List.append_nil _).symm, by rw [hnil],
      Or.inr (by simp [hnil])⟩
  | case5 taken count w w' hr ih =>
    obtain ⟨grown, hgrown⟩ := pipes.read_interrupted hr
    obtain ⟨bytes, more, hbytes, hmore, hstop⟩ := ih
    refine ⟨bytes, grown ++ more, hbytes, ?_, hstop.imp_right ?_⟩
    · rw [← List.append_assoc, hgrown, hmore]
    · intro h
      exact (pipes.read_interrupted hr).trans h
  | case6 taken count w cause w' hr => exact absurd hr pipes.read_failed

/-- Reading takes nothing from another pipe. -/
theorem drain_other {d d' : Descriptor} (hne : d' ≠ d) (taken : List UInt8) (count : Nat) (w : ω) :
    pipes.content d' w <+: pipes.content d' (drain host d taken count w).2.2 := by
  have hread (w : ω) {result w'} (hr : host.read d readChunk w = (result, w')) :
      pipes.content d' w <+: pipes.content d' w' := by
    have := pipes.read_other (n := readChunk) (w := w) hne
    rwa [hr] at this
  fun_induction drain host d taken count w with
  | case1 taken count w w' hr | case2 taken count w b chunk w' hr
  | case4 taken count w w' hr | case6 taken count w cause w' hr => exact hread w hr
  | case3 taken count w b chunk w' hr count' hcap ih
  | case5 taken count w w' hr ih => exact (hread w hr).trans ih

/-- When reads are full, a reading that has more than enough before it takes exactly enough, as it
takes whole chunks. -/
theorem drain_full (hfull : pipes.Full) (d : Descriptor) (taken : List UInt8) (count : Nat) (w : ω)
    (hwhole : readChunk ∣ count) (hcount : count < maxPerCall)
    (hlong : maxPerCall - count < (pipes.content d w).length) :
    (drain host d taken count w).2.1 =
      taken ++ (pipes.content d w).take (maxPerCall - count) := by
  have hroom : count + readChunk ≤ maxPerCall := by
    simp only [readChunk, maxPerCall] at *
    omega
  have hchunk {w w' : ω} {chunk : List UInt8} (hmany : readChunk ≤ (pipes.content d w).length)
      (hr : host.read d readChunk w = (.bytes chunk, w')) : chunk.length = readChunk := by
    have hleast := hfull hr
    have hmost := host.length_read hr
    omega
  fun_induction drain host d taken count w with
  | case1 taken count w w' hr =>
    rw [pipes.read_end (by decide) hr] at hlong
    exact absurd hlong (Nat.not_lt_zero _)
  | case2 taken count w b chunk w' hr count' hcap =>
    obtain ⟨more, hmore⟩ := pipes.read_bytes hr
    have hlength := hchunk (by omega) hr
    have hexact : maxPerCall - count - (b :: chunk).length = 0 := by
      rw [List.length_cons] at hlength ⊢
      omega
    rw [take_of_append_eq hmore (by omega) (by omega), hexact, List.take_zero, List.append_nil]
  | case3 taken count w b chunk w' hr count' hcap ih =>
    obtain ⟨more, hmore⟩ := pipes.read_bytes hr
    have hlength := hchunk (by omega) hr
    have hcount' : count' = count + readChunk := congrArg (count + ·) hlength
    have hsum := congrArg List.length hmore
    simp only [List.length_append] at hsum
    rw [ih (hcount' ▸ Nat.dvd_add hwhole (Nat.dvd_refl _)) (by omega) (by omega)
      (by simp only [readChunk, maxPerCall] at *; omega),
      take_of_append_eq hmore (by omega) (by omega), List.append_assoc, hlength, hcount',
      Nat.sub_add_eq]
  | case4 taken count w w' hr =>
    rw [pipes.read_block hr] at hlong
    exact absurd hlong (Nat.not_lt_zero _)
  | case5 taken count w w' hr ih =>
    obtain ⟨grown, hgrown⟩ := pipes.read_interrupted hr
    rw [← hgrown] at ih
    rw [ih hwhole hcount (by rw [List.length_append]; omega) hroom,
      List.take_append_of_le_length (by omega)]
  | case6 taken count w cause w' hr => exact absurd hr pipes.read_failed

/-- A reading takes less than one chunk more than enough. -/
theorem drain_bound (host : Host ω) (d : Descriptor) (taken : List UInt8) (count : Nat) (w : ω)
    (hcount : count < maxPerCall) :
    count + (drain host d taken count w).2.1.length <
      taken.length + (maxPerCall + readChunk) := by
  fun_induction drain host d taken count w with
  | case1 | case4 | case6 => dsimp only; omega
  | case2 taken count w b chunk w' hr count' hcap =>
    have hmost := host.length_read hr
    simp only [List.length_append, List.length_cons] at hmost ⊢
    omega
  | case3 taken count w b chunk w' hr count' hcap ih =>
    have hmore := ih (by omega)
    simp only [List.length_append, List.length_cons] at hmore
    omega
  | case5 taken count w w' hr ih => exact ih hcount

structure Keeps (waiting taken : List UInt8) : Prop where
  /-- All of it, and nothing else before it, if it is no longer than enough. -/
  short : waiting.length ≤ maxPerCall → waiting <+: taken
  /-- Never a whole chunk more than enough. -/
  bound : taken.length < maxPerCall + readChunk
  /-- When reads are full, exactly enough of a longer one. -/
  long : pipes.Full → maxPerCall < waiting.length → taken = waiting.take maxPerCall

/-- When reads are full, everything is kept if and only if it is no longer than enough. -/
theorem Keeps.iff {pipes : Pipes host} {waiting taken : List UInt8} (h : pipes.Keeps waiting taken)
    (hfull : pipes.Full) : waiting <+: taken ↔ waiting.length ≤ maxPerCall := by
  refine ⟨?_, h.short⟩
  intro hkept
  by_contra hlong
  have hlength := hkept.length_le
  rw [h.long hfull (Nat.lt_of_not_le hlong), List.length_take] at hlength
  omega

theorem drain_keeps {waiting : List UInt8} (d : Descriptor) (taken : List UInt8) (w : ω)
    (hwaiting : waiting <+: pipes.content d w) :
    ∃ bytes, (drain host d taken 0 w).2.1 = taken ++ bytes ∧ pipes.Keeps waiting bytes := by
  obtain ⟨bytes, more, hbytes, hmore, hstop⟩ := pipes.drain_front d taken 0 w
  have hbound := drain_bound host d taken 0 w (by decide)
  rw [hbytes, List.length_append] at hbound
  refine ⟨bytes, hbytes, ?_, by omega, ?_⟩
  · intro hshort
    have hfront : waiting <+: bytes ++ pipes.content d (drain host d taken 0 w).2.2 :=
      hmore ▸ hwaiting.trans (List.prefix_append _ _)
    rcases hstop with hstop | hstop
    · exact List.prefix_of_prefix_length_le hfront (List.prefix_append _ _) (by omega)
    · exact hwaiting.trans hstop
  · intro hfull hlong
    have hlength := hwaiting.length_le
    have hexact := pipes.drain_full hfull d taken 0 w (Nat.dvd_zero _) (by decide) (by omega)
    obtain ⟨rest, hrest⟩ := hwaiting
    rw [hbytes, ← hrest, Nat.sub_zero, List.take_append_of_le_length (by omega)] at hexact
    exact List.append_cancel_left hexact

/-! ### Both readings at the exit -/

section
variable {child : Child} {stream : OutputStream} {d : Descriptor} {waiting : List UInt8}

theorem keepRest_keeps (hd : child.pipe stream = some d) {w : ω}
    (hwaiting : waiting <+: pipes.content d w) :
    ∃ bytes, (child.keepRest host stream w).1.residue stream = child.residue stream ++ bytes ∧
      pipes.Keeps waiting bytes := by
  obtain ⟨bytes, hbytes, hkeeps⟩ := pipes.drain_keeps d (child.residue stream) w hwaiting
  refine ⟨bytes, ?_, hkeeps⟩
  simp only [Child.keepRest, hd, Child.residue_withResidue]
  exact hbytes

theorem keepRest_other (hd : child.pipe stream ≠ some d) (w : ω) :
    pipes.content d w <+: pipes.content d (child.keepRest host stream w).2 := by
  simp only [Child.keepRest]
  split
  · exact List.prefix_refl _
  · next d' hd' =>
    have hne : d ≠ d' := by
      rintro rfl
      exact hd hd'
    exact pipes.drain_other hne _ _ w

end

end Pipes

namespace Child

theorem residue_keepRest_of_ne (host : Host ω) (child : Child) {stream other : OutputStream}
    (hne : other ≠ stream) (w : ω) :
    (child.keepRest host stream w).1.residue other = child.residue other := by
  obtain ⟨bytes, h⟩ := child.keepRest_child host stream w
  rw [h, residue_withResidue_of_ne _ _ _ hne]

/-- Nothing is kept after the two readings. -/
theorem residue_recordExit (host : Host ω) (status : ExitStatus) (child : Child) (w : ω)
    (stream : OutputStream) :
    (child.recordExit host status w).1.residue stream =
      let first := child.keepRest host .stdout w
      (first.1.keepRest host .stderr first.2).1.residue stream := by
  simp only [recordExit, closeStdin, releasePipe_child]
  cases stream <;> rfl

theorem recordExit_keeps {host : Host ω} (pipes : Pipes host) (status : ExitStatus) {child : Child}
    (hout : Apart child.pipe) {stream : OutputStream} {d : Descriptor}
    (hd : child.pipe stream = some d) (w : ω) :
    ∃ bytes, (child.recordExit host status w).1.residue stream = child.residue stream ++ bytes ∧
      pipes.Keeps (pipes.content d w) bytes := by
  rw [residue_recordExit]
  cases stream with
  | stdout =>
    rw [residue_keepRest_of_ne _ _ (by decide)]
    exact pipes.keepRest_keeps hd (List.prefix_refl _)
  | stderr =>
    have hstdout : child.pipe .stdout ≠ some d := fun h => hout d h hd
    have hresidue : (child.keepRest host .stdout w).1.residue .stderr = child.residue .stderr :=
      residue_keepRest_of_ne host child (by decide) w
    rw [← hresidue]
    refine pipes.keepRest_keeps ?_ (pipes.keepRest_other hstdout w)
    rw [pipe_keepRest, hd]

/-- What a child gives of the output that waited when its exit was recorded.  What the next read
does not give is lost. -/
structure GivesRest {host : Host ω} (pipes : Pipes host) (child : Child) (stream : OutputStream)
    (waiting taken : List UInt8) (child' : Child) : Prop where
  /-- The next read gives what was kept, at any time. -/
  next : ∀ w, child'.readStream host stream w =
    (.ok .closed, child.residue stream ++ taken, child'.withResidue [] stream, w)
  /-- A later one gives nothing. -/
  later : ∀ w, (child'.withResidue [] stream).readStream host stream w =
    (.ok .closed, [], child'.withResidue [] stream, w)
  short : waiting.length ≤ maxPerCall → waiting <+: taken
  bound : taken.length < maxPerCall + readChunk
  exact : pipes.Full → (waiting <+: taken ↔ waiting.length ≤ maxPerCall)
  long : pipes.Full → maxPerCall < waiting.length → taken = waiting.take maxPerCall

theorem recordExit_givesRest {host : Host ω} (pipes : Pipes host) (status : ExitStatus)
    {child : Child} (hout : Apart child.pipe) {stream : OutputStream} {d : Descriptor}
    (hd : child.pipe stream = some d) (w : ω) :
    ∃ taken, GivesRest pipes child stream (pipes.content d w) taken
      (child.recordExit host status w).1 := by
  obtain ⟨taken, hresidue, hkeeps⟩ := recordExit_keeps pipes status hout hd w
  have hpipe := (child.recordExit_child host w status).2.2 stream
  refine ⟨taken, ?_, ?_, hkeeps.short, hkeeps.bound, hkeeps.iff, hkeeps.long⟩
  · intro w
    simp only [readStream, pipe_withResidue, hpipe, hresidue]
  · intro w
    simp only [readStream, pipe_withResidue, hpipe, residue_withResidue]
    cases stream <;> rfl

end Child

/-- **What is kept of the output that waits when an exit is recorded.**  It is all of it, in order,
if it is at most `maxPerCall` bytes long.  Of a longer output at most one chunk more than that is
kept, and nothing more than that when reads are full; the rest is never given. -/
theorem output_kept_at_exit {host : Host ω} (pipes : Pipes host) {child child' : Child}
    (hstatus : child.status = none) (hout : Apart child.pipe) {stream : OutputStream}
    {d : Descriptor} (hd : child.pipe stream = some d) {w w' : ω} {status : ExitStatus} :
    (child.tryWait host w = (.ok (some status), child', w') →
      ∃ taken, child.GivesRest pipes stream (pipes.content d (host.reap child.pid w).2) taken
        child') ∧
    (child.wait host w = (.ok status, child', w') →
      ∃ taken, child.GivesRest pipes stream (pipes.content d (host.await child.pid w).2) taken
        child') := by
  refine ⟨?_, ?_⟩
  · intro h
    have hrecorded := child.recorded_of_tryWait host w hstatus h
    obtain rfl : _ = child' := congrArg Prod.fst hrecorded
    exact Child.recordExit_givesRest pipes status hout hd _
  · intro h
    have hrecorded := child.recorded_of_wait host w hstatus h
    obtain rfl : _ = child' := congrArg Prod.fst hrecorded
    exact Child.recordExit_givesRest pipes status hout hd _

/-! ### An example -/

/-- A machine on which every program has ended with code 0.  Its state is what waits in the pipe of
the standard output. -/
def Host.ended : Host (List UInt8) where
  read d n w := if d = 1 then (.bytes (w.take n), w.drop n) else (.bytes [], w)
  write _ _ w := (.brokenPipe, w)
  close _ w := w
  reap _ w := (.ended 0, w)
  await _ w := (.ok 0, w)
  kill _ _ w := (.ok (), w)
  watch _ _ w := (.ok (), w)
  sleep _ w := w
  now w := (0, w)
  start _ w := (.ok ⟨1, none, some 1, some 2⟩, w)
  view _ := ⟨fun _ => .executable, fun _ => true, .ok "/", []⟩
  readFile _ w := (.error (.os Errno.noEntry), w)
  wallClock _ := 0
  patience _ := 0
  patience_read h := by
    split at h <;> cases h
  patience_write h := by cases h
  length_read h := by
    split at h
    · cases h
      exact List.length_take_le ..
    · cases h
      exact Nat.zero_le _
  count_write h := by cases h
  nodup_start h := by
    cases h
    decide

def Pipes.ended : Pipes Host.ended where
  content d w := if d = 1 then w else []
  read_bytes {d n w chunk w'} h := by
    refine ⟨[], ?_⟩
    simp only [Host.ended] at h
    split at h <;> cases h <;> simp_all
  read_end {d n w w'} hn h := by
    simp only [Host.ended] at h
    split at h
    · next hd =>
      have htake : w.take n = [] := ReadResult.bytes.inj (Prod.mk.inj h).1
      rcases List.take_eq_nil_iff.mp htake with hzero | hnil
      · omega
      · rw [if_pos hd, hnil]
    · next hd => exact if_neg hd
  read_block {d n w w'} h := by
    simp only [Host.ended] at h
    split at h <;> cases h
  read_interrupted {d n w w'} h := by
    simp only [Host.ended] at h
    split at h <;> cases h
  read_failed {d n w cause w'} h := by
    simp only [Host.ended] at h
    split at h <;> cases h
  read_other {d d' n w} hne := by
    by_cases hd' : d' = 1
    · have hd : d ≠ 1 := fun hd => hne (hd'.trans hd.symm)
      simp [Host.ended, hd', hd]
    · simp [hd']

theorem Pipes.full_ended : Pipes.ended.Full := by
  intro d n w chunk w' h
  simp only [Host.ended] at h
  split at h
  · next hd =>
    obtain rfl : w.take n = chunk := ReadResult.bytes.inj (Prod.mk.inj h).1
    simp [Pipes.ended, hd]
  · next hd => simp [Pipes.ended, hd]

/-- When 400000 bytes wait at the exit, the next read gives the first 262144, and nothing gives the
rest. -/
theorem output_lost_at_exit :
    let child : Child :=
      { pid := 1, stdin := none, stdout := some 1, stderr := some 2, leadsGroup := true }
    ∃ child' w', child.tryWait Host.ended (List.replicate 400000 97) =
        (.ok (some (.exited 0)), child', w') ∧
      ∀ w, (child'.readStream Host.ended .stdout w).2.1 = List.replicate maxPerCall 97 := by
  intro child
  have hlook : child.tryWait Host.ended (List.replicate 400000 97) = (.ok (some (.exited 0)), _) :=
    child.tryWait_of_report Host.ended _ rfl (by decide)
  have hstdout : child.pipe .stdout = some 1 := rfl
  have hout : Apart child.pipe := by
    intro d hd
    obtain rfl : 1 = d := Option.some.inj hd
    decide
  have hwaiting : Pipes.ended.content 1 (Host.ended.reap child.pid (List.replicate 400000 97)).2 =
      List.replicate 400000 97 := rfl
  have hlong : maxPerCall < (List.replicate 400000 (97 : UInt8)).length := by
    rw [List.length_replicate]
    decide
  refine ⟨_, _, hlook, ?_⟩
  intro w
  obtain ⟨taken, hgives⟩ := (output_kept_at_exit Pipes.ended rfl hout hstdout).1 hlook
  rw [hwaiting] at hgives
  rw [hgives.next w, hgives.long Pipes.full_ended hlong, List.take_replicate]
  rfl

end Chaperone
