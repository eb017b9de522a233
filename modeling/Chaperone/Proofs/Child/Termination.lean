import Chaperone.Proofs.Child.Refusal
import Chaperone.Proofs.Child.Sound
import Chaperone.Proofs.Invariant

/-!
# How a child is ended in two steps

Each step sends a signal and then looks at the child until it has ended or the window of the step
has passed (`Child.press`).  `Child.Step` lists what the calls of a step can be and what comes of
it: the signal fails, or the looks, all of which find the child running, are cut short by a failing
one, by the end of the child or by the clock.  `Child.Course` puts the two steps together.

A call that settles how the child is ended (`Call.settles?`) is the last one that is made but for
those that empty its pipes and release them (`Child.Course.settled`).  What the first step has to
have gone through before the child is killed, and both before it is given up, is `Child.Passes`.
Both come to an end if calls take time (`Child.exists_of_terminateWithTimeout`).
`Child.ended_in_two_steps` is what all this comes to.
-/

namespace Chaperone

variable {ω : Type}

/-- What a call that is made to end a child settles: its end is reported, or the call fails.  That
nobody is left to take a signal, or that it is not allowed, is no failure. -/
def Call.settles? (pid : Pid) : Call → Option (Except Error ExitStatus)
  | .kill _ signal (.error errno) =>
    if errno = Errno.noProcess ∨ errno = Errno.notPermitted then none
    else some (.error (.terminate ⟨pid, signal, errno⟩))
  | .reap _ (.failed errno) =>
    if errno = Errno.noChild then some (.ok .lost) else some (.error (.io (.os errno)))
  | .reap _ (.ended word) => some (.ok (.ofWaitWord word))
  | _ => none

theorem Call.settles?_reap {about pid : Pid} {answer : ReapResult} {status : ExitStatus}
    (h : answer.status? = some status) :
    (Call.reap about answer).settles? pid = some (.ok status) := by
  cases answer with
  | ended word =>
    cases h
    rfl
  | running => cases h
  | failed errno =>
    rw [ReapResult.status?, Option.ite_none_right_eq_some] at h
    obtain ⟨hlost, ⟨⟩⟩ := h
    exact if_pos hlost

theorem Call.settles?_reap_failed {about pid : Pid} {errno : Errno} (h : errno ≠ Errno.noChild) :
    (Call.reap about (.failed errno)).settles? pid = some (.error (.io (.os errno))) :=
  if_neg h

theorem Call.settles?_kill {target : Target} {signal : Signal} {pid : Pid} {errno : Errno}
    (hknown : errno ≠ Errno.noProcess) (hallowed : errno ≠ Errno.notPermitted) :
    (Call.kill target signal (.error errno)).settles? pid =
      some (.error (.terminate ⟨pid, signal, errno⟩)) :=
  if_neg (not_or.mpr ⟨hknown, hallowed⟩)

theorem Call.Empties.settles? {call : Call} (h : call.Empties) (pid : Pid) :
    call.settles? pid = none := by
  cases call with
  | read | close => rfl
  | _ => exact h.elim

section
variable {α : Type} {P : α → Prop} {before rest front back : List α} {x y : α}

/-- An element with a property that none of the first ones has comes after them. -/
theorem exists_of_append_cons (h : before ++ x :: rest = front ++ back) (hx : P x)
    (hfront : ∀ z ∈ front, ¬P z) :
    ∃ between, before = front ++ between ∧ between ++ x :: rest = back := by
  rcases List.append_eq_append_iff.mp h with ⟨between, rfl, hback⟩ | ⟨between, rfl, hback⟩
  · cases between with
    | nil => exact ⟨[], by simp, hback⟩
    | cons z between =>
      obtain ⟨rfl, -⟩ := List.cons.inj hback
      exact absurd hx (hfront x (List.mem_append_right before List.mem_cons_self))
  · exact ⟨between, rfl, hback.symm⟩

/-- Where the only element with a property stands. -/
theorem eq_of_append_cons (h : before ++ x :: rest = front ++ y :: back) (hx : P x)
    (hfront : ∀ z ∈ front, ¬P z) (hback : ∀ z ∈ back, ¬P z) :
    before = front ∧ x = y ∧ rest = back := by
  obtain ⟨between, rfl, hrest⟩ := exists_of_append_cons h hx hfront
  cases between with
  | nil =>
    obtain ⟨rfl, rfl⟩ := List.cons.inj hrest
    exact ⟨List.append_nil front, rfl, rfl⟩
  | cons z between =>
    obtain ⟨rfl, rfl⟩ := List.cons.inj hrest
    exact absurd hx (hback x (List.mem_append_right between List.mem_cons_self))

end

namespace Child

/-! ### One window -/

/-- Looks at a child since `start`, each of which has found it running, and then the clock before
the end of the window. -/
inductive Watching (pid : Pid) (start window : Nat) : Log → Prop
  | begun : Watching pid start window []
  | looked {time : Nat} {calls : Log} (early : time - start < window)
      (later : Watching pid start window calls) :
      Watching pid start window
        (.reap pid .running :: .now time :: .sleep lookInterval :: calls)

inductive Closing (child : Child) (start window : Nat) :
    Option (Except SystemError (Option ExitStatus)) → Child → Log → Prop
  /-- The fuel does not last. -/
  | dry : Closing child start window none child []
  | passed {time : Nat} (late : window ≤ time - start) :
      Closing child start window (some (.ok none)) child [.reap child.pid .running, .now time]
  | failed {errno : Errno} (other : errno ≠ Errno.noChild) :
      Closing child start window (some (.error (.os errno))) child [.reap child.pid (.failed errno)]
  | seen {answer : ReapResult} {status : ExitStatus} {after : Child} {calls : Log}
      (reports : answer.status? = some status) (recorded : after.status = some status)
      (empties : ∀ call ∈ calls, call.Empties) :
      Closing child start window (some (.ok (some status))) after (.reap child.pid answer :: calls)

variable {child after : Child} {start window : Nat} {calls : Log}

theorem Watching.settles? {pid : Pid} (h : Watching pid start window calls) :
    ∀ call ∈ calls, call.settles? pid = none := by
  induction h with
  | begun => exact List.forall_mem_nil _
  | looked early later ih => simpa [Call.settles?] using ih

theorem Watching.signal? {pid : Pid} (h : Watching pid start window calls) :
    ∀ call ∈ calls, call.signal? = none := by
  induction h with
  | begun => exact List.forall_mem_nil _
  | looked early later ih => simpa [Call.signal?] using ih

theorem Closing.signal? {answer : Option (Except SystemError (Option ExitStatus))}
    (h : Closing child start window answer after calls) : ∀ call ∈ calls, call.signal? = none := by
  cases h with
  | dry => exact List.forall_mem_nil _
  | passed | failed => simp [Call.signal?]
  | seen reports recorded empties =>
    exact List.forall_mem_cons.mpr ⟨rfl, fun call hcall => (empties call hcall).silent.signal?⟩

/-- One look: the looks end with it, or it has found the child running and there is another one. -/
theorem lookForExit_spec (host : Host ω) (start window : Nat) (hstatus : child.status = none)
    (w : ω × Log) :
    (∃ time w', lookForExit host.logged start window (child, w) = .inl (child, w') ∧
      time - start < window ∧
        w'.2 = w.2 ++ [.reap child.pid .running, .now time, .sleep lookInterval]) ∨
    ∃ answer after w' calls,
      lookForExit host.logged start window (child, w) = .inr (answer, after, w') ∧
        w'.2 = w.2 ++ calls ∧ Closing child start window (some answer) after calls := by
  have hlog : (host.logged.reap child.pid w).2.2 =
      w.2 ++ [.reap child.pid (host.logged.reap child.pid w).1] := rfl
  obtain ⟨status, hsome, -⟩ | ⟨status, -, hreports, hlook⟩ | ⟨-, hsilent, hlook⟩ :=
    child.tryWait_cases host.logged w
  · rw [hstatus] at hsome
    cases hsome
  · obtain ⟨calls, hcalls, hempties⟩ :=
      empties_recordExit host status child (host.logged.reap child.pid w).2
    have hrecorded := (child.recordExit_child host.logged (host.logged.reap child.pid w).2 status).1
    rw [hlog, List.append_assoc] at hcalls
    refine Or.inr ⟨.ok (some status), _, _, _, ?_, hcalls, .seen hreports hrecorded hempties⟩
    simp only [lookForExit, hlook]
  · cases hanswer : (host.logged.reap child.pid w).1 with
    | ended word =>
      rw [hanswer] at hsilent
      cases hsilent
    | running =>
      rw [hanswer] at hlook hlog
      simp only [ReapResult.silence] at hlook
      generalize (host.logged.reap child.pid w).2 = w₁ at hlook hlog
      have hclock : (host.logged.now w₁).2.2 =
          w.2 ++ [.reap child.pid .running, .now (host.logged.now w₁).1] := by
        show w₁.2 ++ _ = _
        rw [hlog, List.append_assoc]
        rfl
      by_cases hlate : window ≤ (host.logged.now w₁).1 - start
      · refine Or.inr ⟨.ok none, child, _, _, ?_, hclock, .passed hlate⟩
        simp only [lookForExit, hlook, if_pos hlate]
      · refine Or.inl ⟨(host.logged.now w₁).1,
          host.logged.sleep lookInterval (host.logged.now w₁).2, ?_, Nat.lt_of_not_le hlate, ?_⟩
        · simp only [lookForExit, hlook, if_neg hlate]
        · show (host.logged.now w₁).2.2 ++ _ = _
          rw [hclock, List.append_assoc]
          rfl
    | failed errno =>
      rw [hanswer] at hsilent hlook hlog
      have hother : errno ≠ Errno.noChild := by
        intro hlost
        simp [ReapResult.status?, hlost] at hsilent
      refine Or.inr ⟨.error (.os errno), child, _, _, ?_, hlog, .failed hother⟩
      simp only [lookForExit, hlook, ReapResult.silence]

/-- The looks of a window, by induction on the fuel: what was looked at in vain before the next look
stays in front of all that follows. -/
theorem iterate_lookForExit_spec (host : Host ω) (start window : Nat)
    (hstatus : child.status = none) (fuel : Nat) (w : ω × Log) :
    ∃ looks calls answer after w',
      (iterate (lookForExit host.logged start window) fuel (child, w)).elim
        (fun m => (none, m)) (fun r => (some r.1, r.2)) = (answer, after, w') ∧
      w'.2 = w.2 ++ (looks ++ calls) ∧ Watching child.pid start window looks ∧
        Closing child start window answer after calls := by
  induction fuel generalizing w with
  | zero => exact ⟨[], [], none, child, w, rfl, (List.append_nil _).symm, .begun, .dry⟩
  | succ fuel ih =>
    obtain ⟨time, w₁, hnext, hearly, hlog⟩ | ⟨answer, after, w₁, calls, hend, hlog, hcloses⟩ :=
      lookForExit_spec host start window hstatus w
    · obtain ⟨looks, calls, answer, after, w₂, hrest, hlog₂, hlooks, hcloses⟩ := ih w₁
      refine ⟨_, calls, answer, after, w₂, ?_, ?_, .looked hearly hlooks, hcloses⟩
      · rw [iterate, hnext]
        exact hrest
      · rw [hlog₂, hlog, List.append_assoc]
        rfl
    · refine ⟨[], calls, some answer, after, w₁, ?_, hlog, .begun, hcloses⟩
      rw [iterate, hend]
      rfl

theorem waitUntil_spec (host : Host ω) (fuel window : Nat) (hstatus : child.status = none)
    (w : ω × Log) :
    ∃ start looks calls answer after w',
      child.waitUntil host.logged fuel window w = (answer, after, w') ∧
        w'.2 = w.2 ++ .now start :: (looks ++ calls) ∧ Watching child.pid start window looks ∧
          Closing child start window answer after calls := by
  obtain ⟨looks, calls, answer, after, w', hloop, hlog, hlooks, hcloses⟩ :=
    iterate_lookForExit_spec host (host.logged.now w).1 window hstatus fuel (host.logged.now w).2
  refine ⟨_, looks, calls, answer, after, w', ?_, ?_, hlooks, hcloses⟩
  · rw [← hloop]
    simp only [waitUntil]
    generalize iterate (lookForExit host.logged (host.logged.now w).1 window) fuel
      (child, (host.logged.now w).2) = r
    cases r <;> rfl
  · rw [hlog]
    show w.2 ++ _ ++ _ = _
    rw [List.append_assoc]
    rfl

/-! ### One step -/

/-- One of the two steps: a signal, and looks until the child has ended or a window has passed. -/
def press (host : Host ω) (fuel : Nat) (signal : Signal) (window : Nat) (child : Child) (w : ω) :
    Option (Except Error (Option ExitStatus)) × Child × ω :=
  match child.signal host signal w with
  | (.error cause, w) => (some (.error (.terminate cause)), child, w)
  | (.ok (), w) =>
    let (answer, child, w) := child.waitUntil host fuel window w
    (answer.map (·.mapError .io), child, w)

def conclude : Option (Except Error (Option ExitStatus)) → Option (Except Error ExitStatus)
  | some (.ok (some status)) => some (.ok status)
  | some (.error cause) => some (.error cause)
  | _ => none

theorem conclude_map (result : Except Error ExitStatus) :
    conclude (some (result.map some)) = some result := by
  cases result <;> rfl

theorem conclude_eq_some_iff {answer : Option (Except Error (Option ExitStatus))}
    {result : Except Error ExitStatus} :
    conclude answer = some result ↔ answer = some (result.map some) := by
  constructor
  · intro h
    obtain _ | _ | _ | _ := answer <;> cases h <;> rfl
  · rintro rfl
    exact conclude_map result

def followed (next : Child → ω → Option (Except Error ExitStatus) × Child × ω) :
    Option (Except Error (Option ExitStatus)) × Child × ω →
      Option (Except Error ExitStatus) × Child × ω
  | (some (.ok none), child, w) => next child w
  | (answer, child, w) => (conclude answer, child, w)

theorem followed_of_ends {next : Child → ω → Option (Except Error ExitStatus) × Child × ω}
    {answer : Option (Except Error (Option ExitStatus))} (h : answer ≠ some (.ok none))
    (child : Child) (w : ω) : followed next (answer, child, w) = (conclude answer, child, w) := by
  obtain _ | _ | _ | _ := answer
  · rfl
  · rfl
  · exact absurd rfl h
  · rfl

/-- The two steps. -/
theorem terminateWithTimeout_eq (host : Host ω) (fuel grace : Nat) (child : Child) (w : ω) :
    child.terminateWithTimeout host fuel grace w =
      followed
        (fun child w =>
          followed (fun child w => (some (.error (survived child.pid)), child, w))
            (child.press host fuel .kill killWindow w))
        (child.press host fuel .terminate grace w) := by
  simp only [terminateWithTimeout, press]
  obtain ⟨_ | _, w⟩ := child.signal host .terminate w
  · rfl
  · dsimp only
    obtain ⟨_ | _ | _ | _, child, w⟩ := child.waitUntil host fuel grace w
    · rfl
    · rfl
    · dsimp only [Option.map, Except.mapError, followed]
      obtain ⟨_ | _, w⟩ := child.signal host .kill w
      · rfl
      · dsimp only
        obtain ⟨_ | _ | _ | _, child, w⟩ := child.waitUntil host fuel killWindow w <;> rfl
    · rfl

/-! ### Enough looks -/

theorem exists_of_followed {next : Child → ω → Option (Except Error ExitStatus) × Child × ω}
    (hnext : ∀ child w, ∃ result, (next child w).1 = some result)
    {m : Option (Except Error (Option ExitStatus)) × Child × ω}
    (h : ∃ answer, m.1 = some answer) : ∃ result, (followed next m).1 = some result := by
  obtain ⟨answer, child, w⟩ := m
  obtain ⟨given, rfl⟩ := h
  obtain cause | _ | status := given
  · exact ⟨_, rfl⟩
  · exact hnext child w
  · exact ⟨_, rfl⟩

section

variable {host : Host ω} (timed : host.Timed)

/-- After a look within the window the pause moves the clock. -/
theorem clock_of_lookForExit {state next : Child × ω}
    (h : lookForExit host start window state = .inl next) :
    timed.clock state.2 < start + window ∧
      timed.clock state.2 + lookInterval ≤ timed.clock next.2 := by
  obtain ⟨child, w⟩ := state
  simp only [lookForExit] at h
  obtain ⟨status, -, hlook⟩ | ⟨status, -, -, hlook⟩ | ⟨-, hsilent, hlook⟩ :=
    child.tryWait_cases host w
  · rw [hlook] at h
    cases h
  · rw [hlook] at h
    cases h
  · rw [hlook] at h
    have hreaped := (timed.onward (timed.clock w)).reap child.pid w (Nat.le_refl _)
    generalize host.reap child.pid w = reaped at h hreaped hsilent
    obtain ⟨answer, w₁⟩ := reaped
    have hread := timed.le_now w₁
    have hnow := (timed.onward (timed.clock w₁)).now w₁ (Nat.le_refl _)
    cases answer with
    | ended word => cases hsilent
    | failed errno => cases h
    | running =>
      simp only [ReapResult.silence] at h
      split at h
      · cases h
      · next hin =>
        cases h
        have hearly : ¬window ≤ (host.now w₁).1 - start := hin
        have hpause : timed.clock (host.now w₁).2 + max lookInterval 1 ≤
            timed.clock (host.sleep lookInterval (host.now w₁).2) := timed.sleep _ _
        refine ⟨?_, Nat.le_trans ?_ hpause⟩ <;> dsimp only at hreaped ⊢ <;> omega

/-- So many looks within a window take so long. -/
theorem clock_of_looks {count : Nat} {state last : Child × ω}
    (h : iterate (lookForExit host start window) (count + 1) state = .inl last) :
    timed.clock state.2 + count * lookInterval < start + window := by
  induction count generalizing state with
  | zero =>
    rw [iterate] at h
    split at h
    · next next hlook =>
      rw [Nat.zero_mul]
      exact (clock_of_lookForExit timed hlook).1
    · cases h
  | succ count ih =>
    rw [iterate] at h
    split at h
    · next next hlook =>
      obtain ⟨-, hpause⟩ := clock_of_lookForExit timed hlook
      have hrest := ih h
      rw [Nat.succ_mul]
      omega
    · cases h

variable {fuel looks : Nat}
include timed

/-- A window that is filled by fewer looks than there is fuel comes to its end. -/
theorem exists_of_waitUntil (hwindow : window ≤ looks * lookInterval) (hfuel : looks < fuel)
    (child : Child) (w : ω) :
    ∃ answer, (child.waitUntil host fuel window w).1 = some answer := by
  obtain ⟨more, rfl⟩ := Nat.exists_eq_add_of_lt hfuel
  simp only [waitUntil]
  split
  · next last hlast =>
    have hlong : timed.clock (host.now w).2 + (looks + more) * lookInterval <
        (host.now w).1 + window := clock_of_looks timed hlast
    have hstart := timed.now_le w
    rw [Nat.add_mul] at hlong
    omega
  · exact ⟨_, rfl⟩

theorem exists_of_press (hwindow : window ≤ looks * lookInterval) (hfuel : looks < fuel)
    (signal : Signal) (child : Child) (w : ω) :
    ∃ answer, (child.press host fuel signal window w).1 = some answer := by
  simp only [press]
  obtain ⟨cause | _, w₁⟩ := child.signal host signal w
  · exact ⟨_, rfl⟩
  · obtain ⟨answer, hanswer⟩ := exists_of_waitUntil timed hwindow hfuel child w₁
    dsimp only
    rw [hanswer]
    exact ⟨_, rfl⟩

/-- **Ending a child comes to an end**, whatever the child does. -/
theorem exists_of_terminateWithTimeout {grace : Nat} (hgrace : grace ≤ looks * lookInterval)
    (hkill : killWindow ≤ looks * lookInterval) (hfuel : looks < fuel) (child : Child) (w : ω) :
    ∃ result, (child.terminateWithTimeout host fuel grace w).1 = some result := by
  rw [terminateWithTimeout_eq]
  refine exists_of_followed (fun child w => ?_) (exists_of_press timed hgrace hfuel ..)
  refine exists_of_followed (fun child w => ?_) (exists_of_press timed hkill hfuel ..)
  exact ⟨_, rfl⟩

end

inductive Step (child : Child) (signal : Signal) (window : Nat) :
    Option (Except Error (Option ExitStatus)) → Child → Log → Prop
  | refused {errno : Errno} (known : errno ≠ Errno.noProcess)
      (allowed : errno ≠ Errno.notPermitted) :
      Step child signal window (some (.error (.terminate ⟨child.pid, signal, errno⟩))) child
        [.kill child.target signal (.error errno)]
  | watched {result : Except Errno Unit} {start : Nat} {looks calls : Log}
      {answer : Option (Except SystemError (Option ExitStatus))} {after : Child}
      (taken : (Call.kill child.target signal result).settles? child.pid = none)
      (watching : Watching child.pid start window looks)
      (closing : Closing child start window answer after calls) :
      Step child signal window (answer.map (·.mapError .io)) after
        (.kill child.target signal result :: .now start :: (looks ++ calls))

/-- The calls of a step that a child survives.  None of them settles anything: after the signal every
look finds it running, and after the last one of them the window has passed. -/
def Passes (child : Child) (signal : Signal) (window : Nat) (calls : Log) : Prop :=
  ∃ result start looks time,
    calls = .kill child.target signal result :: .now start ::
      (looks ++ [.reap child.pid .running, .now time]) ∧
    (∀ call ∈ calls, call.settles? child.pid = none) ∧
    Watching child.pid start window looks ∧ window ≤ time - start

/-- One signal, unless the exit has been seen. -/
theorem signal_spec (host : Host ω) (signal : Signal) (hstatus : child.status = none)
    (w : ω × Log) :
    (∃ errno w', child.signal host.logged signal w = (.error ⟨child.pid, signal, errno⟩, w') ∧
      errno ≠ Errno.noProcess ∧ errno ≠ Errno.notPermitted ∧
        w'.2 = w.2 ++ [.kill child.target signal (.error errno)]) ∨
    ∃ result w', child.signal host.logged signal w = (.ok (), w') ∧
      (Call.kill child.target signal result).settles? child.pid = none ∧
        w'.2 = w.2 ++ [.kill child.target signal result] := by
  have hexited : ¬child.exited = true := by simp [exited, hstatus]
  have hlog : (host.logged.kill child.target signal w).2.2 =
      w.2 ++ [.kill child.target signal (host.logged.kill child.target signal w).1] := rfl
  rw [Child.signal, if_neg hexited]
  generalize host.logged.kill child.target signal w = killed at hlog ⊢
  obtain ⟨errno | _, w'⟩ := killed
  · dsimp only at hlog ⊢
    by_cases hgone : errno = Errno.noProcess ∨ errno = Errno.notPermitted
    · refine Or.inr ⟨.error errno, w', ?_, if_pos hgone, hlog⟩
      rw [if_pos (by simpa using hgone)]
    · obtain ⟨hknown, hallowed⟩ := not_or.mp hgone
      refine Or.inl ⟨errno, w', ?_, hknown, hallowed, hlog⟩
      rw [if_neg (by simpa using hgone)]
  · exact Or.inr ⟨.ok (), w', rfl, rfl, hlog⟩

theorem press_spec (host : Host ω) (fuel : Nat) (signal : Signal) (window : Nat)
    (hstatus : child.status = none) (w : ω × Log) :
    ∃ answer after w' calls, child.press host.logged fuel signal window w = (answer, after, w') ∧
      w'.2 = w.2 ++ calls ∧ Step child signal window answer after calls := by
  obtain ⟨errno, w₁, hsignal, hknown, hallowed, hlog⟩ | ⟨result, w₁, hsignal, htaken, hlog⟩ :=
    signal_spec host signal hstatus w
  · refine ⟨_, child, w₁, _, ?_, hlog, .refused hknown hallowed⟩
    simp only [press, hsignal]
  · obtain ⟨start, looks, calls, answer, after, w₂, hwait, hlog₂, hwatching, hclosing⟩ :=
      waitUntil_spec host fuel window hstatus w₁
    refine ⟨_, after, w₂, _, ?_, ?_, .watched htaken hwatching hclosing⟩
    · simp only [press, hsignal, hwait]
    · rw [hlog₂, hlog, List.append_assoc]
      rfl

/-- What holds when a call has settled how a child is ended, and what is called afterwards. -/
structure Concluded (result : Except Error ExitStatus) (after : Child) (rest : Log) : Prop where
  recorded : ∀ status, result = .ok status → after.status = some status
  empties : ∀ call ∈ rest, call.Empties
  last : ∀ cause, result = .error cause → rest = []

namespace Step

variable {signal : Signal} {answer : Option (Except Error (Option ExitStatus))}

/-- A step begins with its signal, and sends no other one. -/
theorem signals (h : Step child signal window answer after calls) :
    ∃ result rest, calls = .kill child.target signal result :: rest ∧
      ∀ call ∈ rest, call.signal? = none := by
  cases h with
  | refused => exact ⟨_, [], rfl, List.forall_mem_nil _⟩
  | watched taken watching closing =>
    refine ⟨_, _, rfl, List.forall_mem_cons.mpr ⟨rfl, ?_⟩⟩
    exact List.forall_mem_append.mpr ⟨watching.signal?, closing.signal?⟩

theorem passes (h : Step child signal window (some (.ok none)) after calls) :
    after = child ∧ Passes child signal window calls := by
  generalize hanswer : some (Except.ok none) = answer at h
  cases h with
  | refused => cases hanswer
  | @watched result start looks calls answer after taken watching closing =>
    cases closing with
    | dry => cases hanswer
    | failed other => cases hanswer
    | seen reports recorded empties => cases hanswer
    | passed late =>
      refine ⟨rfl, _, _, _, _, rfl, ?_, watching, late⟩
      refine List.forall_mem_cons.mpr ⟨taken, List.forall_mem_cons.mpr ⟨rfl, ?_⟩⟩
      refine List.forall_mem_append.mpr ⟨watching.settles?, ?_⟩
      simp [Call.settles?]

/-- A call that settles how the child is ended decides what comes of the step. -/
theorem settled (h : Step child signal window answer after calls) {before rest : Log} {call : Call}
    {result : Except Error ExitStatus} (hcalls : before ++ call :: rest = calls)
    (hsettles : call.settles? child.pid = some result) :
    answer = some (result.map some) ∧ Concluded result after rest := by
  have hne : ¬call.settles? child.pid = none := by simp [hsettles]
  -- no other call of a step settles anything
  have hone {front back : Log} {other : Call} (hsame : front ++ other :: back = calls)
      (hfront : ∀ c ∈ front, c.settles? child.pid = none)
      (hback : ∀ c ∈ back, c.settles? child.pid = none) : call = other ∧ rest = back :=
    (eq_of_append_cons (hcalls.trans hsame.symm) hne (fun c hc => not_not.mpr (hfront c hc))
      fun c hc => not_not.mpr (hback c hc)).2
  have hnone (hquiet : ∀ c ∈ calls, c.settles? child.pid = none) : False :=
    hne (hquiet call (hcalls ▸ List.mem_append_right before List.mem_cons_self))
  cases h with
  | refused known allowed =>
    obtain ⟨rfl, rfl⟩ := hone (List.nil_append _) (List.forall_mem_nil _) (List.forall_mem_nil _)
    rw [Call.settles?_kill known allowed] at hsettles
    cases hsettles
    exact ⟨rfl, nofun, List.forall_mem_nil _, fun _ _ => rfl⟩
  | @watched asked start looks calls answer after taken watching closing =>
    have hfront : ∀ c ∈ Call.kill child.target signal asked :: .now start :: looks,
        c.settles? child.pid = none :=
      List.forall_mem_cons.mpr ⟨taken, List.forall_mem_cons.mpr ⟨rfl, watching.settles?⟩⟩
    cases closing with
    | dry =>
      rw [List.append_nil] at hnone
      exact (hnone hfront).elim
    | passed late =>
      refine (hnone ?_).elim
      show ∀ c ∈ (Call.kill child.target signal asked :: .now start :: looks) ++ _, _
      exact List.forall_mem_append.mpr ⟨hfront, by simp [Call.settles?]⟩
    | failed other =>
      obtain ⟨rfl, rfl⟩ := hone rfl hfront (List.forall_mem_nil _)
      rw [Call.settles?_reap_failed other] at hsettles
      cases hsettles
      exact ⟨rfl, nofun, List.forall_mem_nil _, fun _ _ => rfl⟩
    | seen reports recorded empties =>
      obtain ⟨rfl, rfl⟩ := hone rfl hfront fun c hc => (empties c hc).settles? child.pid
      rw [Call.settles?_reap reports] at hsettles
      cases hsettles
      refine ⟨rfl, ?_, empties, nofun⟩
      rintro _ ⟨⟩
      exact recorded

/-- A step that ends with a status has seen it, and it is recorded. -/
theorem reports {status : ExitStatus}
    (h : Step child signal window (some (.ok (some status))) after calls) :
    after.status = some status ∧ ∃ before about reply rest,
      calls = before ++ .reap about reply :: rest ∧ reply.status? = some status := by
  generalize hanswer : some (Except.ok (some status)) = answer at h
  cases h with
  | refused => cases hanswer
  | @watched result start looks calls answer after taken watching closing =>
    cases closing with
    | dry => cases hanswer
    | passed late => cases hanswer
    | failed other => cases hanswer
    | seen reports recorded empties =>
      cases hanswer
      exact ⟨recorded, .kill child.target signal result :: .now start :: looks, _, _, _, rfl,
        reports⟩

/-- No step gives the child up. -/
theorem ne_wait {reason : String} :
    ¬Step child signal window (some (.error (.wait reason))) after calls := by
  intro h
  generalize hanswer : some (Except.error (Error.wait reason)) = answer at h
  cases h with
  | refused => cases hanswer
  | watched taken watching closing => cases closing <;> cases hanswer

end Step

/-! ### Both steps -/

/-- What the calls are that end a child whose exit has not been seen, and what comes of it. -/
inductive Course (child : Child) (grace : Nat) :
    Option (Except Error ExitStatus) → Child → Log → Prop
  | first {answer : Option (Except Error (Option ExitStatus))} {after : Child} {calls : Log}
      (step : Step child .terminate grace answer after calls) (ends : answer ≠ some (.ok none)) :
      Course child grace (conclude answer) after calls
  | second {answer : Option (Except Error (Option ExitStatus))} {after : Child} {calls more : Log}
      (asked : Passes child .terminate grace calls)
      (step : Step child .kill killWindow answer after more) (ends : answer ≠ some (.ok none)) :
      Course child grace (conclude answer) after (calls ++ more)
  | gaveUp {calls more : Log} (asked : Passes child .terminate grace calls)
      (killed : Passes child .kill killWindow more) :
      Course child grace (some (.error (survived child.pid))) child (calls ++ more)

theorem course (host : Host ω) (fuel grace : Nat) (hstatus : child.status = none) (w : ω × Log) :
    let outcome := child.terminateWithTimeout host.logged fuel grace w
    ∃ calls, outcome.2.2.2 = w.2 ++ calls ∧ Course child grace outcome.1 outcome.2.1 calls := by
  obtain ⟨answer, after, w₁, calls, hpress, hlog, hstep⟩ :=
    press_spec host fuel .terminate grace hstatus w
  rw [terminateWithTimeout_eq, hpress]
  by_cases hends : answer = some (.ok none)
  · subst hends
    obtain ⟨rfl, hasked⟩ := hstep.passes
    obtain ⟨answer, last, w₂, more, hpress₂, hlog₂, hstep₂⟩ :=
      press_spec host fuel .kill killWindow hstatus w₁
    rw [followed, hpress₂]
    rw [hlog, List.append_assoc] at hlog₂
    by_cases hends : answer = some (.ok none)
    · subst hends
      obtain ⟨rfl, hkilled⟩ := hstep₂.passes
      exact ⟨calls ++ more, hlog₂, .gaveUp hasked hkilled⟩
    · rw [followed_of_ends hends]
      exact ⟨calls ++ more, hlog₂, .second hasked hstep₂ hends⟩
  · rw [followed_of_ends hends]
    exact ⟨calls, hlog, .first hstep hends⟩

namespace Course

variable {grace : Nat} {answer : Option (Except Error ExitStatus)}

/-- A call that settles how the child is ended decides what comes of it. -/
theorem settled (h : Course child grace answer after calls) {before rest : Log} {call : Call}
    {result : Except Error ExitStatus} (hcalls : calls = before ++ call :: rest)
    (hsettles : call.settles? child.pid = some result) :
    answer = some result ∧ Concluded result after rest := by
  have hne : ¬call.settles? child.pid = none := by simp [hsettles]
  cases h with
  | first step ends =>
    obtain ⟨rfl, hrest⟩ := step.settled hcalls.symm hsettles
    exact ⟨conclude_map result, hrest⟩
  | second asked step ends =>
    obtain ⟨-, -, -, -, -, hquiet, -⟩ := asked
    obtain ⟨between, -, hmore⟩ :=
      exists_of_append_cons hcalls.symm hne fun c hc => not_not.mpr (hquiet c hc)
    obtain ⟨rfl, hrest⟩ := step.settled hmore hsettles
    exact ⟨conclude_map result, hrest⟩
  | gaveUp asked killed =>
    obtain ⟨-, -, -, -, -, hquiet, -⟩ := asked
    obtain ⟨-, -, -, -, -, hquiet', -⟩ := killed
    have hmem : call ∈ _ ++ _ := hcalls ▸ List.mem_append_right before List.mem_cons_self
    exact absurd (List.forall_mem_append.mpr ⟨hquiet, hquiet'⟩ call hmem) hne

/-- A status that is given was reported, and is recorded. -/
theorem reports {status : ExitStatus} (h : Course child grace (some (.ok status)) after calls) :
    after.status = some status ∧ ∃ before about reply rest,
      calls = before ++ .reap about reply :: rest ∧ reply.status? = some status := by
  generalize hanswer : some (Except.ok status) = answer at h
  cases h with
  | first step ends =>
    rw [conclude_eq_some_iff.mp hanswer.symm] at step
    exact step.reports
  | second asked step ends =>
    rw [conclude_eq_some_iff.mp hanswer.symm] at step
    obtain ⟨hrecorded, before, about, reply, rest, rfl, hreply⟩ := step.reports
    exact ⟨hrecorded, _ ++ before, about, reply, rest, (List.append_assoc ..).symm, hreply⟩
  | gaveUp => cases hanswer

/-- A child that is given up has survived both steps. -/
theorem survives {reason : String}
    (h : Course child grace (some (.error (.wait reason))) after calls) :
    Error.wait reason = survived child.pid ∧ after = child ∧ ∃ first second,
      calls = first ++ second ∧ Passes child .terminate grace first ∧
        Passes child .kill killWindow second := by
  generalize hanswer : some (Except.error (Error.wait reason)) = answer at h
  cases h with
  | first step ends =>
    rw [conclude_eq_some_iff.mp hanswer.symm] at step
    exact absurd step Step.ne_wait
  | second asked step ends =>
    rw [conclude_eq_some_iff.mp hanswer.symm] at step
    exact absurd step Step.ne_wait
  | gaveUp asked killed => exact ⟨by cases hanswer; rfl, rfl, _, _, rfl, asked, killed⟩

end Course

/-- The signals among the calls that end a child: it is asked first, and killed once if it has
survived that. -/
structure Signalled (child : Child) (grace : Nat) (calls : Log) : Prop where
  asks : ∃ result rest, calls = .kill child.target .terminate result :: rest
  sends : sent calls = [(child.target, .terminate)] ∨
    sent calls = [(child.target, .terminate), (child.target, .kill)]
  kills : ∀ before target result, before ++ [.kill target .kill result] <+: calls →
    target = child.target ∧ Passes child .terminate grace before

theorem sent_eq_nil {calls : Log} (h : ∀ call ∈ calls, call.signal? = none) : sent calls = [] :=
  List.filterMap_eq_nil_iff.mpr h

theorem Passes.signals {signal : Signal} (h : Passes child signal window calls) :
    ∃ result rest, calls = .kill child.target signal result :: rest ∧
      ∀ call ∈ rest, call.signal? = none := by
  obtain ⟨result, start, looks, time, rfl, -, hwatching, -⟩ := h
  refine ⟨result, _, rfl, List.forall_mem_cons.mpr ⟨rfl, ?_⟩⟩
  exact List.forall_mem_append.mpr ⟨hwatching.signal?, by simp [Call.signal?]⟩

namespace Signalled

variable {grace : Nat} {rest : Log} {result : Except Errno Unit}

/-- No signal after the first one. -/
theorem once (hrest : ∀ call ∈ rest, call.signal? = none) :
    Signalled child grace (.kill child.target .terminate result :: rest) where
  asks := ⟨result, rest, rfl⟩
  sends := Or.inl (congrArg (_ :: ·) (sent_eq_nil hrest))
  kills := by
    intro before target killed hprefix
    have hmem : Call.kill target .kill killed ∈ _ :: rest :=
      hprefix.subset (List.mem_append_right before (List.mem_singleton_self _))
    rcases List.mem_cons.mp hmem with heq | hrested
    · cases heq
    · exact absurd (hrest _ hrested) (by simp [Call.signal?])

/-- Another one, after the first step was survived. -/
theorem twice (asked : Passes child .terminate grace calls)
    (hrest : ∀ call ∈ rest, call.signal? = none) :
    Signalled child grace (calls ++ .kill child.target .kill result :: rest) := by
  obtain ⟨first, others, hcalls, hothers⟩ := asked.signals
  refine ⟨⟨first, others ++ _, by rw [hcalls, List.cons_append]⟩, Or.inr ?_, ?_⟩
  · have hfirst : sent calls = [(child.target, .terminate)] := by
      rw [hcalls]
      exact congrArg (_ :: ·) (sent_eq_nil hothers)
    have hsecond : sent (.kill child.target .kill result :: rest) = [(child.target, .kill)] :=
      congrArg (_ :: ·) (sent_eq_nil hrest)
    rw [sent, List.filterMap_append]
    exact congrArg₂ (· ++ ·) hfirst hsecond
  · rintro before target killed ⟨suffix, hsuffix⟩
    rw [List.append_assoc, List.singleton_append] at hsuffix
    -- the only signal that kills stands after the first step
    have hfront : ∀ c ∈ calls, ¬c.signal?.map Prod.snd = some .kill := by
      rw [hcalls]
      exact List.forall_mem_cons.mpr ⟨by simp [Call.signal?], fun c hc => by simp [hothers c hc]⟩
    have hback : ∀ c ∈ rest, ¬c.signal?.map Prod.snd = some .kill := by
      intro c hc
      simp [hrest c hc]
    obtain ⟨rfl, hsame, -⟩ := eq_of_append_cons (P := fun c => c.signal?.map Prod.snd = some .kill)
      hsuffix rfl hfront hback
    cases hsame
    exact ⟨rfl, asked⟩

end Signalled

theorem Course.signalled {grace : Nat} {answer : Option (Except Error ExitStatus)}
    (h : Course child grace answer after calls) : Signalled child grace calls := by
  cases h with
  | first step ends =>
    obtain ⟨result, rest, rfl, hrest⟩ := step.signals
    exact .once hrest
  | second asked step ends =>
    obtain ⟨result, rest, rfl, hrest⟩ := step.signals
    exact .twice asked hrest
  | gaveUp asked killed =>
    obtain ⟨result, rest, rfl, hrest⟩ := killed.signals
    exact .twice asked hrest

/-! ### What is left of the child -/

/-- When the exit was recorded before, no signal is sent and the answer is what was recorded. -/
theorem terminateWithTimeout_of_recorded (host : Host ω) (fuel grace : Nat) {status : ExitStatus}
    (hstatus : child.status = some status) (w : ω × Log) :
    let outcome := child.terminateWithTimeout host.logged fuel grace w
    outcome.2.1 = child ∧ Only Call.Waits w outcome.2.2 ∧
      (0 < fuel → outcome.1 = some (.ok status)) := by
  have hexited : child.exited = true := by simp [exited, hstatus]
  have hsilent : child.signal host.logged .terminate w = (.ok (), w) := by
    rw [Child.signal, if_pos hexited]
  have hlook : lookForExit host.logged (host.logged.now w).1 grace (child, (host.logged.now w).2) =
      .inr (.ok (some status), child, (host.logged.now w).2) := by
    simp only [lookForExit, tryWait, hstatus]
  have hclock : Only Call.Waits w (host.logged.now w).2 := .one (.now _) trivial rfl
  cases fuel with
  | zero =>
    have hwait : child.waitUntil host.logged 0 grace w = (none, child, (host.logged.now w).2) := rfl
    simp only [terminateWithTimeout, hsilent, hwait]
    exact ⟨trivial, hclock, fun hpos => absurd hpos (Nat.lt_irrefl 0)⟩
  | succ fuel =>
    have hwait : child.waitUntil host.logged (fuel + 1) grace w =
        (some (.ok (some status)), child, (host.logged.now w).2) := by
      simp only [waitUntil, iterate, hlook]
    simp only [terminateWithTimeout, hsilent, hwait]
    exact ⟨trivial, hclock, fun _ => trivial⟩

/-- What was received while the child was ended is kept when its exit is recorded, and read once. -/
theorem Sound.givesOnce_of_terminateWithTimeout (hsound : child.Sound) (hout : Apart child.pipe)
    (host : Host ω) (fuel grace : Nat) (w : ω × Log) {status : ExitStatus}
    (hrecorded : (child.terminateWithTimeout host.logged fuel grace w).2.1.status = some status)
    (hlog : (child.terminateWithTimeout host.logged fuel grace w).2.2.2 = w.2 ++ calls)
    (operations : List (Operation ω)) (stream : OutputStream) :
    GivesOnce (child.residue stream ++ received (child.pipe stream) calls)
      (((child.terminateWithTimeout host.logged fuel grace w).2.1.deal host
        (child.terminateWithTimeout host.logged fuel grace w).2.2 operations).reads stream) := by
  obtain ⟨hafter, -⟩ := Evolves.terminateWithTimeout host.logged child fuel grace w hsound
  have hgives := hafter.givesOnce hrecorded host
    (child.terminateWithTimeout host.logged fuel grace w).2.2 operations stream
  have hkept : (child.terminateWithTimeout host.logged fuel grace w).2.1.residue stream =
      child.residue stream ++ received (child.pipe stream) calls := by
    cases hstatus : child.status with
    | some status =>
      have hexited : child.exited = true := by simp [exited, hstatus]
      have hreleased : child.pipe stream = none := (hsound.released hexited).2.1 stream
      rw [terminateWithTimeout_of_exited host.logged hstatus, hreleased, received_none,
        List.append_nil]
    | none =>
      have hexited : child.exited = false := by simp [exited, hstatus]
      have hflow : Flow child.pipe (fun other => received (child.pipe other) w.2) child w.2 := by
        refine ⟨fun _ => Or.inr rfl, fun other => ?_⟩
        rw [hsound.unread hexited, List.append_nil]
      have hended :
          (child.perform host w (.terminateWithTimeout fuel grace)).2.1.exited = true := by
        simp [perform, exited, hrecorded]
      have hreceived := received_of_exit hout hflow hsound
        (.terminateWithTimeout fuel grace) hexited hended stream
      simp only [perform] at hreceived
      rw [hlog, received_append] at hreceived
      rw [hsound.unread hexited, List.nil_append]
      exact (List.append_cancel_left hreceived).symm
  rw [← hkept]
  exact hgives

/-- **How a child is ended.**

If its exit was recorded before, no signal is sent and that status is the answer.  Otherwise the
child is asked to end first, and killed at most once; and before it is killed a look has found it
running, after which the whole time of grace was over (`Signalled`).

A look that sees the end gives the status that it records, and from then on the pipes are only
emptied and released; no other status is ever given.  A child is given up only when it has survived
both steps, so the last look has found it running.  A signal that fails, unless nobody is left to
take it, and a look that fails, unless somebody else has seen the end, are the last calls, and the
answer is their failure.

What was received from a pipe meanwhile is what the next read of that stream gives.

If calls take time there is an answer, as soon as there is fuel for the looks that fill each of the
two windows. -/
theorem ended_in_two_steps (host : Host ω) (fuel grace : Nat) (child : Child) (w : ω × Log) :
    let outcome := child.terminateWithTimeout host.logged fuel grace w
    let answer := outcome.1
    let after := outcome.2.1
    (host.Timed → ∀ looks, grace ≤ looks * lookInterval → killWindow ≤ looks * lookInterval →
      looks < fuel → ∃ result, answer = some result) ∧
    ∃ calls, outcome.2.2.2 = w.2 ++ calls ∧
      (∀ status, child.status = some status →
        after = child ∧ (∀ call ∈ calls, call.Waits) ∧ (0 < fuel → answer = some (.ok status))) ∧
      (child.status = none →
        Signalled child grace calls ∧
        (∀ before about reply status rest, calls = before ++ .reap about reply :: rest →
          reply.status? = some status →
            answer = some (.ok status) ∧ after.status = some status ∧
              ∀ call ∈ rest, call.Empties) ∧
        (∀ status, answer = some (.ok status) →
          after.status = some status ∧ ∃ before about reply rest,
            calls = before ++ .reap about reply :: rest ∧ reply.status? = some status) ∧
        (∀ reason, answer = some (.error (.wait reason)) →
          Error.wait reason = survived child.pid ∧ after = child ∧ ∃ first second,
            calls = first ++ second ∧ Passes child .terminate grace first ∧
              Passes child .kill killWindow second) ∧
        (∀ before target signal errno rest,
          calls = before ++ .kill target signal (.error errno) :: rest →
            errno ≠ Errno.noProcess → errno ≠ Errno.notPermitted →
              rest = [] ∧ answer = some (.error (.terminate ⟨child.pid, signal, errno⟩))) ∧
        ∀ before about errno rest, calls = before ++ .reap about (.failed errno) :: rest →
          errno ≠ Errno.noChild → rest = [] ∧ answer = some (.error (.io (.os errno)))) ∧
      (child.Sound → Apart child.pipe → ∀ status, answer = some (.ok status) →
        ∀ operations stream,
          GivesOnce (child.residue stream ++ received (child.pipe stream) calls)
            ((after.deal host outcome.2.2 operations).reads stream)) := by
  intro outcome answer after
  refine ⟨fun timed looks hgrace hkill hfuel =>
    exists_of_terminateWithTimeout timed.logged hgrace hkill hfuel child w, ?_⟩
  cases hstatus : child.status with
  | some status =>
    obtain ⟨hsame, ⟨calls, hlog, hwaits⟩, hanswer⟩ :=
      terminateWithTimeout_of_recorded host fuel grace hstatus w
    refine ⟨calls, hlog, ?_, nofun, fun hsound hout _ _ operations stream => ?_⟩
    · rintro _ ⟨⟩
      exact ⟨hsame, hwaits, hanswer⟩
    · have hrecorded : outcome.2.1.status = some status := by rw [hsame, hstatus]
      exact hsound.givesOnce_of_terminateWithTimeout hout host fuel grace w hrecorded hlog
        operations stream
  | none =>
    obtain ⟨calls, hlog, hcourse⟩ := course host fuel grace hstatus w
    refine ⟨calls, hlog, nofun, fun _ => ⟨hcourse.signalled, ?_, ?_, ?_, ?_, ?_⟩, ?_⟩
    · intro before about reply status rest hcalls hreply
      obtain ⟨hanswer, hrest⟩ := hcourse.settled hcalls (Call.settles?_reap hreply)
      exact ⟨hanswer, hrest.recorded status rfl, hrest.empties⟩
    · intro status hanswer
      rw [show outcome.1 = _ from hanswer] at hcourse
      exact hcourse.reports
    · intro reason hanswer
      rw [show outcome.1 = _ from hanswer] at hcourse
      exact hcourse.survives
    · intro before target signal errno rest hcalls hknown hallowed
      obtain ⟨hanswer, hrest⟩ := hcourse.settled hcalls (Call.settles?_kill hknown hallowed)
      exact ⟨hrest.last _ rfl, hanswer⟩
    · intro before about errno rest hcalls hother
      obtain ⟨hanswer, hrest⟩ := hcourse.settled hcalls (Call.settles?_reap_failed hother)
      exact ⟨hrest.last _ rfl, hanswer⟩
    · intro hsound hout status hanswer operations stream
      rw [show outcome.1 = _ from hanswer] at hcourse
      exact hsound.givesOnce_of_terminateWithTimeout hout host fuel grace w hcourse.reports.1 hlog
        operations stream

end Child

/-! ### A child that must be killed -/

/-- A machine with a clock and a program that ends when it is killed. -/
def Host.deaf : Host (Nat × Bool) where
  read _ _ w := (.bytes [], w)
  write _ _ w := (.brokenPipe, w)
  close _ w := w
  reap _ w := (if w.2 then .ended 9 else .running, w)
  await _ w := (.ok 9, w)
  kill _ signal w := (.ok (), w.1, w.2 || signal == .kill)
  watch _ milliseconds w := (.ok (), w.1 + milliseconds * 1000, w.2)
  sleep microseconds w := (w.1 + max microseconds 1, w.2)
  now w := (w.1, w)
  start _ w := (.ok ⟨1, none, none, none⟩, w)
  view _ := ⟨fun _ => .executable, fun _ => true, .ok "/", []⟩
  readFile _ w := (.error (.os Errno.noEntry), w)
  wallClock w := w.1 / 1000
  patience _ := 0
  patience_read h := by cases h
  patience_write h := by cases h
  length_read h := by
    cases h
    exact Nat.zero_le _
  count_write h := by cases h
  nodup_start h := by
    cases h
    exact List.nodup_nil

def Host.timedDeaf : Host.deaf.Timed where
  clock w := w.1
  onward time := by
    constructor <;> intros <;> simp only [Host.deaf] at * <;> omega
  le_now _ := Nat.le_refl _
  now_le _ := Nat.le_refl _
  sleep _ _ := Nat.le_refl _

/-- The program is given 40 milliseconds, which it survives, and is killed then. -/
theorem Child.ended_in_two_steps_deaf :
    let child : Child :=
      { pid := 1, stdin := none, stdout := none, stderr := none, leadsGroup := false }
    let outcome := child.terminateWithTimeout Host.deaf.logged 251 40000 ((0, false), [])
    (∃ result, outcome.1 = some result) ∧ outcome.1 = some (.ok (.signaled 9)) ∧
      sent outcome.2.2.2 = [(.process 1, .terminate), (.process 1, .kill)] ∧
        Passes child .terminate 40000 (outcome.2.2.2.take 10) := by
  intro child outcome
  let asked : Log := [
    .kill (.process 1) .terminate (.ok ()), .now 0, .reap 1 .running, .now 0, .sleep 20000,
    .reap 1 .running, .now 20000, .sleep 20000, .reap 1 .running, .now 40000]
  let killed : Log := [.kill (.process 1) .kill (.ok ()), .now 40000]
  have hlog : outcome.2.2.2 = asked ++ killed ++ [.reap 1 (.ended 9)] := by cbv
  obtain ⟨hanswers, calls, hcalls, -, hrunning, -⟩ :=
    ended_in_two_steps Host.deaf 251 40000 child ((0, false), [])
  obtain ⟨hsignalled, hseen, -⟩ := hrunning rfl
  obtain rfl : calls = asked ++ killed ++ [.reap 1 (.ended 9)] := hcalls.symm.trans hlog
  have hend := (hseen (asked ++ killed) 1 (.ended 9) (.signaled 9) [] rfl rfl).1
  have hpassed := (hsignalled.kills asked (.process 1) (.ok ()) ⟨_, rfl⟩).2
  refine ⟨hanswers Host.timedDeaf 250 (by decide) (by decide) (by decide), hend, ?_, ?_⟩
  · rw [hlog]
    rfl
  · rw [hlog]
    exact hpassed

end Chaperone
