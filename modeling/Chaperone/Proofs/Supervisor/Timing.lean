import Chaperone.Proofs.Invariant
import Chaperone.Proofs.Supervisor.Hom
import Chaperone.Proofs.Supervisor.Registry
import Chaperone.Proofs.Supervisor.Waiting

/-!
# How long a wait lasts

A wait looks at the children, pauses, and then reads the clock; it gives up when the clock is past
the deadline, and it does not look again before.  So it takes note of the children that have ended
when its last look begins, and not of those that end during the pause, though the deadline may be
later still (`Host.Timed.late_of_wait`).  If no round lasts from before the end of the last child
until after the deadline, the wait lasts until all children have ended
(`Host.Timed.wait_of_ended`).
-/

namespace Chaperone

variable {σ κ ω : Type}

/-! ### What looks and waits keep -/

namespace Host.Keeps

variable {host : Host ω} {P : ω → Prop} {w : ω}

theorem exchange (h : host.Keeps P) (entry : Entry σ) (s : σ) (hw : P w) :
    P (entry.exchange host s w).2.2 := by
  have hinside := Entry.exchange_hom (Host.inside h) entry.callbacks.carried_id s ⟨w, hw⟩
  rw [id] at hinside
  rw [hinside]
  exact Subtype.property _

theorem entryPoll (h : host.Keeps P) (entry : Entry σ) (s : σ) (hw : P w) :
    P (entry.poll host s w).2.2 := by
  have hinside := Entry.poll_hom (Host.inside h) entry.callbacks.carried_id s ⟨w, hw⟩
  rw [id] at hinside
  rw [hinside]
  exact Subtype.property _

theorem poll (h : host.Keeps P) (supervisor : Supervisor σ) (s : σ) (hw : P w) :
    P (supervisor.poll host s w).2.2.2 := by
  have hcarried : ∀ entry ∈ supervisor.entries, entry.callbacks.Carried id :=
    fun entry _ => entry.callbacks.carried_id
  have hinside := Supervisor.poll_hom (Host.inside h) hcarried s ⟨w, hw⟩
  rw [id] at hinside
  rw [hinside]
  exact Subtype.property _

/-- What every call keeps, the rounds of a wait keep. -/
theorem wait (h : host.Keeps P) :
    Supervisor.Keeps host (fun state : Supervisor σ × σ × ω => P state.2.2) where
  poll supervisor s _ := h.poll supervisor s
  sleep _ _ w time := h.sleep time w
  now _ _ w := h.now w

end Host.Keeps

namespace Host.Timed

variable {host : Host ω} (timed : host.Timed)

/-- From this time on whoever asks is told that the child has ended. -/
def EndsBy (w : ω) (pid : Pid) (time : Nat) : Prop :=
  ∀ w', host.Reaches w w' → time ≤ timed.clock w' → (host.reap pid w').1.status?.isSome

end Host.Timed

/-! ### One look -/

namespace Entry

variable (host : Host ω) (entry : Entry σ) (s : σ) (w : ω)

theorem pid_exchange : (entry.exchange host s w).1.child.pid = entry.child.pid := by
  have hlogged := exchange_hom host.forget entry.callbacks.carried_id s (w, [])
  rw [id] at hlogged
  rw [hlogged]
  exact (heeds_exchange host entry s (w, [])).pid

theorem pid_poll : (entry.poll host s w).1.child.pid = entry.child.pid := by
  have hlogged := poll_hom host.forget entry.callbacks.carried_id s (w, [])
  rw [id] at hlogged
  rw [hlogged]
  exact (heeds_poll host entry s (w, [])).pid

/-- A look that is told of the end finishes the entry. -/
theorem finished_poll
    (h : (host.reap entry.child.pid (entry.exchange host s w).2.2).1.status?.isSome) :
    (entry.poll host s w).1.finished = true := by
  have hpid := pid_exchange host entry s w
  simp only [poll]
  generalize entry.exchange host s w = m at h hpid ⊢
  rw [← hpid] at h
  obtain ⟨status, -, ht⟩ | ⟨status, -, -, ht⟩ | ⟨-, hr, -⟩ := m.1.child.tryWait_cases host m.2.2
  · rw [ht]
    rfl
  · rw [ht]
    rfl
  · rw [hr] at h
    cases h

end Entry

namespace Host.Timed

variable {host : Host ω} (timed : host.Timed) {w₀ : ω}

/-- A child that a look leaves had not ended when the look began. -/
theorem lt_of_unfinished {entry : Entry σ} {s : σ} {w : ω} (hreach : host.Reaches w₀ w)
    (hleft : (entry.poll host s w).1.finished = false) {time : Nat}
    (hends : timed.EndsBy w₀ entry.child.pid time) : timed.clock w < time := by
  by_contra hlate
  have hlate : time ≤ timed.clock w := Nat.le_of_not_lt hlate
  have hreached := (host.keeps_reaches w₀).exchange entry s hreach
  have hclock := (timed.onward time).exchange entry s hlate
  have hfinished := entry.finished_poll host s w (hends _ hreached hclock)
  rw [hleft] at hfinished
  cases hfinished

/-- So it is with all children of a registry. -/
theorem lt_of_left {time began : Nat} {entries : List (Entry σ)} {s : σ} {w : ω}
    (hreach : host.Reaches w₀ w) (hbegan : began ≤ timed.clock w) {entry : Entry σ}
    (hentry : entry ∈ (Supervisor.pollAll host entries s w).1) (hleft : entry.finished = false)
    (hends : timed.EndsBy w₀ entry.child.pid time) : began < time := by
  induction entries generalizing s w with
  | nil => cases hentry
  | cons first rest ih =>
    have hentry : entry ∈ (first.poll host s w).1 ::
        (Supervisor.pollAll host rest (first.poll host s w).2.1 (first.poll host s w).2.2).1 :=
      hentry
    rcases List.mem_cons.mp hentry with hfirst | hentry
    · rw [hfirst] at hleft hends
      rw [Entry.pid_poll] at hends
      exact Nat.lt_of_le_of_lt hbegan (timed.lt_of_unfinished hreach hleft hends)
    · have hreached := (host.keeps_reaches w₀).entryPoll first s hreach
      have hclock := (timed.onward began).entryPoll first s hbegan
      exact ih hreached hclock hentry

end Host.Timed

namespace Supervisor

variable {host : Host ω}

theorem pids_pollAll (host : Host ω) (entries : List (Entry σ)) (s : σ) (w : ω) :
    (pollAll host entries s w).1.map (·.child.pid) = entries.map (·.child.pid) := by
  induction entries generalizing s w with
  | nil => rfl
  | cons entry rest ih => exact congrArg₂ List.cons (entry.pid_poll host s w) (ih _ _)

/-- Whoever is left was there before. -/
theorem exists_of_left {supervisor : Supervisor σ} {s : σ} {w : ω} {entry : Entry σ}
    (h : entry ∈ (supervisor.poll host s w).2.1.entries) :
    ∃ before ∈ supervisor.entries, before.child.pid = entry.child.pid := by
  have hpid : entry.child.pid ∈ (pollAll host supervisor.entries s w).1.map (·.child.pid) :=
    List.mem_map_of_mem (List.mem_of_mem_filter h)
  rw [pids_pollAll] at hpid
  exact List.mem_map.mp hpid

end Supervisor

/-! ### The rounds of a wait -/

namespace Host.Timed

variable {host : Host ω} (timed : host.Timed) {w₀ : ω} {time interval : Nat}
  {deadline : Option Nat}

structure Ending (w₀ : ω) (time : Nat) (state : Supervisor σ × σ × ω) : Prop where
  reached : host.Reaches w₀ state.2.2
  ends : ∀ entry ∈ state.1.entries, timed.EndsBy w₀ entry.child.pid time

theorem keeps_ending (w₀ : ω) (time : Nat) :
    Supervisor.Keeps host (timed.Ending w₀ time : Supervisor σ × σ × ω → Prop) where
  poll supervisor s w h := by
    refine ⟨(host.keeps_reaches w₀).poll supervisor s h.reached, ?_⟩
    intro entry hentry
    obtain ⟨before, hbefore, hpid⟩ := Supervisor.exists_of_left hentry
    rw [← hpid]
    exact h.ends before hbefore
  sleep _ _ w time h := ⟨(host.keeps_reaches w₀).sleep time w h.reached, h.ends⟩
  now _ _ w h := ⟨(host.keeps_reaches w₀).now w h.reached, h.ends⟩

/-- A round that begins when all children have ended finds that out. -/
theorem waitRound_of_ended (interval : Nat) (deadline : Option Nat) {state : Supervisor σ × σ × ω}
    (h : timed.Ending w₀ time state) (hlate : time ≤ timed.clock state.2.2) :
    ∃ result, Supervisor.waitRound host interval deadline state = .inr (true, result) := by
  obtain ⟨supervisor, s, w⟩ := state
  have hnone : ∀ entry ∈ (supervisor.poll host s w).2.1.entries, False := by
    intro entry hentry
    obtain ⟨hpolled, hleft⟩ := List.mem_filter.mp hentry
    obtain ⟨before, hbefore, hpid⟩ := Supervisor.exists_of_left hentry
    have hends := h.ends before hbefore
    rw [hpid] at hends
    exact Nat.lt_irrefl _ (timed.lt_of_left h.reached hlate hpolled (by simpa using hleft) hends)
  have hleft : (supervisor.poll host s w).1 = false := by
    rw [Supervisor.poll, Bool.not_eq_false', List.isEmpty_iff]
    exact List.eq_nil_iff_forall_not_mem.mpr hnone
  refine ⟨(supervisor.poll host s w).2, ?_⟩
  rw [Supervisor.waitRound]
  generalize supervisor.poll host s w = look at hleft ⊢
  obtain ⟨left, supervisor', s', w'⟩ := look
  cases hleft
  rfl

/-- A round that goes on takes its time. -/
theorem clock_lt_of_waitRound {state next : Supervisor σ × σ × ω}
    (h : Supervisor.waitRound host interval deadline state = .inl next) :
    timed.clock state.2.2 < timed.clock next.2.2 := by
  have hlook := (timed.onward _).poll state.1 state.2.1 (Nat.le_refl (timed.clock state.2.2))
  have hslept := timed.sleep interval (state.1.poll host state.2.1 state.2.2).2.2.2
  have hread := (timed.onward _).now _ (Nat.le_refl
    (timed.clock (host.sleep interval (state.1.poll host state.2.1 state.2.2).2.2.2)))
  rcases Supervisor.waitRound_next h with hnext | hnext <;> rw [hnext]
  · omega
  · rw [Supervisor.reading]
    omega

/-- As long as no round that begins before the children have ended is over after the deadline, the
rounds go on until they have. -/
theorem iterate_of_ended {state : Supervisor σ × σ × ω} (h : timed.Ending w₀ time state)
    (hpunctual : ∀ limit, deadline = some limit → ∀ count last,
      iterate (Supervisor.waitRound host interval deadline) count state = .inl last →
        timed.clock last.2.2 < time → (Supervisor.reading host interval last).1 ≤ limit)
    {fuel : Nat} (hfuel : time ≤ timed.clock state.2.2 + fuel) :
    ∃ result, iterate (Supervisor.waitRound host interval deadline) (fuel + 1) state =
      .inr (true, result) := by
  induction fuel generalizing state with
  | zero =>
    obtain ⟨result, hround⟩ := timed.waitRound_of_ended interval deadline h hfuel
    exact ⟨result, by rw [iterate, hround]⟩
  | succ fuel ih =>
    rw [iterate]
    cases hround : Supervisor.waitRound host interval deadline state with
    | inl next =>
      have hnext : timed.Ending w₀ time next := by
        have hkept := (timed.keeps_ending w₀ time).round interval deadline h
        rwa [hround] at hkept
      have hlater := timed.clock_lt_of_waitRound hround
      refine ih hnext ?_ (by omega)
      intro limit hlimit count last hlast
      refine hpunctual limit hlimit (count + 1) last ?_
      rw [iterate, hround]
      exact hlast
    | inr answer =>
      obtain ⟨verdict, result⟩ := answer
      cases verdict with
      | true => exact ⟨result, rfl⟩
      | false =>
        obtain ⟨limit, hlimit, hpast, -, -⟩ := Supervisor.waitRound_giveUp hround
        rcases Nat.lt_or_ge (timed.clock state.2.2) time with hearly | hlate
        · exact absurd hpast (Nat.not_lt.mpr (hpunctual limit hlimit 0 state rfl hearly))
        · obtain ⟨result, hfound⟩ := timed.waitRound_of_ended interval deadline h hlate
          cases hround.symm.trans hfound

/-- No round of a wait that begins before a time is over after the deadline. -/
def Punctual (interval : Nat) (maxWait : Option Nat) (time : Nat) (state : Supervisor σ × σ × ω) :
    Prop :=
  let deadline := (Supervisor.waitDeadline host maxWait state.2.2).1
  ∀ limit, deadline = some limit → ∀ count last,
    iterate (Supervisor.waitRound host interval deadline) count
        (Supervisor.started host maxWait state.1 state.2.1 state.2.2) = .inl last →
      timed.clock last.2.2 < time → (Supervisor.reading host interval last).1 ≤ limit

structure Late (interval : Nat) (maxWait : Option Nat) (state last result : Supervisor σ × σ × ω) :
    Prop where
  /-- It is a round of this wait. -/
  reached : ∃ count, iterate
    (Supervisor.waitRound host interval (Supervisor.waitDeadline host maxWait state.2.2).1) count
      (Supervisor.started host maxWait state.1 state.2.1 state.2.2) = .inl last
  /-- It is over after the deadline. -/
  late : ∃ limit, (Supervisor.waitDeadline host maxWait state.2.2).1 = some limit ∧
    limit < (Supervisor.reading host interval last).1
  /-- Its look has left some children, and what it has left is what the wait leaves. -/
  some_left : result.1.entries ≠ []
  left : result.1 = (last.1.poll host last.2.1 last.2.2).2.1
  /-- None of these had ended when it began. -/
  running : ∀ entry ∈ result.1.entries, ∀ time, timed.EndsBy state.2.2 entry.child.pid time →
    timed.clock last.2.2 < time

variable {fuel : Nat} {maxWait : Option Nat} {supervisor : Supervisor σ} {s : σ} {w : ω}

/-- **No false alarm** as long as rounds are punctual: then a wait lasts until all children have
ended. -/
theorem wait_of_ended (hends : ∀ entry ∈ supervisor.entries, timed.EndsBy w entry.child.pid time)
    (hpunctual : timed.Punctual interval maxWait time (supervisor, s, w))
    (hfuel : time - timed.clock w < fuel) :
    ∃ result, supervisor.wait host fuel interval maxWait s w = (some true, result) := by
  obtain ⟨rounds, rfl⟩ : ∃ rounds, fuel = rounds + 1 := ⟨fuel - 1, by omega⟩
  have hending : timed.Ending w time (supervisor, s, w) := ⟨.refl host w, hends⟩
  have hnow : timed.clock w ≤ timed.clock (Supervisor.started host maxWait supervisor s w).2.2 :=
    (timed.onward (timed.clock w)).wait.started maxWait (Nat.le_refl _)
  obtain ⟨result, hrounds⟩ := timed.iterate_of_ended
    ((timed.keeps_ending w time).started maxWait hending) hpunctual
    (show time ≤ timed.clock (Supervisor.started host maxWait supervisor s w).2.2 + rounds by omega)
  exact ⟨result, Supervisor.wait_of_iterate hrounds⟩

/-- A wait that gives up leaves only children that had not ended when its last look began. -/
theorem late_of_wait {result : Supervisor σ × σ × ω}
    (h : supervisor.wait host fuel interval maxWait s w = (some false, result)) :
    ∃ last, timed.Late interval maxWait (supervisor, s, w) last result := by
  obtain ⟨count, last, hlast, hround⟩ := Supervisor.last_of_wait h
  have hkeeps : Supervisor.Keeps host
      (fun state : Supervisor σ × σ × ω => host.Reaches w state.2.2) := (host.keeps_reaches w).wait
  have hbegin : host.Reaches w (Supervisor.started host maxWait supervisor s w).2.2 :=
    hkeeps.started maxWait (.refl host w)
  have hreach : host.Reaches w last.2.2 := by
    have hrounds := hkeeps.rounds interval (Supervisor.waitDeadline host maxWait w).1 count hbegin
    rwa [hlast] at hrounds
  have hleft : result.1.entries ≠ [] :=
    List.isEmpty_eq_false_iff.mp (Session.isEmpty_of_wait h)
  obtain ⟨limit, hlimit, hpast, -, rfl⟩ := Supervisor.waitRound_giveUp hround
  refine ⟨last, ⟨count, hlast⟩, ⟨limit, hlimit, hpast⟩, hleft, rfl, ?_⟩
  · intro entry hentry time hends
    obtain ⟨hpolled, hunfinished⟩ := List.mem_filter.mp hentry
    exact timed.lt_of_left hreach (Nat.le_refl _) hpolled (by simpa using hunfinished) hends

end Host.Timed

end Chaperone
