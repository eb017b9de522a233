import Chaperone.Proofs.Supervisor.Waiting

/-!
# The verdict of a wait

`Supervisor.Rounds` lists the states in which the rounds of a wait begin, up to the one in which it
is settled.  A wait says that all children have ended when the look of a round leaves none, and that
they have not when the look leaves some and the clock is then past the deadline; either way that
look is the last one (`Supervisor.verdict_of_wait`).  A wait whose deadline the clock cannot name
goes on as if there were none.
-/

namespace Chaperone.Supervisor

variable {σ ω : Type} {host : Host ω} {fuel interval count : Nat} {deadline maxWait : Option Nat}
  {supervisor : Supervisor σ} {s : σ} {w : ω} {begun state result : Supervisor σ × σ × ω}

/-! ### The rounds that are over -/

/-- So many rounds have settled nothing, and the next one begins in this state.  Each of them has
left some children, and has not found the clock past the deadline. -/
inductive Rounds (host : Host ω) (interval : Nat) (deadline : Option Nat)
    (begun : Supervisor σ × σ × ω) : Nat → Supervisor σ × σ × ω → Prop
  | none : Rounds host interval deadline begun 0 begun
  | unlimited {count : Nat} {state : Supervisor σ × σ × ω}
      (before : Rounds host interval deadline begun count state)
      (left : (look host state).1.isEmpty = false) (never : deadline = .none) :
      Rounds host interval deadline begun (count + 1) (rested host interval state)
  | inTime {count limit : Nat} {state : Supervisor σ × σ × ω}
      (before : Rounds host interval deadline begun count state)
      (left : (look host state).1.isEmpty = false) (limited : deadline = some limit)
      (early : (reading host interval state).1 ≤ limit) :
      Rounds host interval deadline begun (count + 1) (timed host interval state)

theorem rounds_iff : Rounds host interval deadline begun count state ↔
    iterate (waitRound host interval deadline) count begun = .inl state := by
  induction count generalizing state with
  | zero =>
    constructor
    · rintro ⟨⟩
      rfl
    · rintro ⟨⟩
      exact .none
  | succ count ih =>
    -- a constructor adds a round at the end, where `iterate` unfolds at the beginning
    rw [iterate_succ]
    constructor
    · rintro (_ | ⟨before, left, never⟩ | ⟨before, left, limited, early⟩)
      · rw [ih.mp before, Sum.elim_inl, waitRound_eq_inl_iff]
        exact ⟨left, Or.inl ⟨never, rfl⟩⟩
      · rw [ih.mp before, Sum.elim_inl, waitRound_eq_inl_iff]
        exact ⟨left, Or.inr ⟨_, limited, early, rfl⟩⟩
    · intro h
      cases hbefore : iterate (waitRound host interval deadline) count begun with
      | inr settled =>
        rw [hbefore] at h
        cases h
      | inl last =>
        rw [hbefore, Sum.elim_inl, waitRound_eq_inl_iff] at h
        obtain ⟨left, ⟨never, rfl⟩ | ⟨limit, limited, early, rfl⟩⟩ := h
        · exact .unlimited (ih.mpr hbefore) left never
        · exact .inTime (ih.mpr hbefore) left limited early

/-- A round that settles the wait is the last one. -/
theorem Rounds.le_of_settled {settled : Bool × Supervisor σ × σ × ω}
    (h : Rounds host interval deadline begun count state)
    (hround : waitRound host interval deadline state = .inr settled) {later : Nat}
    {other : Supervisor σ × σ × ω} (hlater : Rounds host interval deadline begun later other) :
    later ≤ count := by
  by_contra hmore
  obtain ⟨more, rfl⟩ := Nat.exists_eq_add_of_lt (Nat.lt_of_not_le hmore)
  -- what is settled stays so, and in round `later` it is not
  have hsettled : iterate (waitRound host interval deadline) (count + 1) begun = .inr settled := by
    rw [iterate_succ, rounds_iff.mp h, Sum.elim_inl, hround]
  have hstill := iterate_add hsettled more
  rw [Nat.add_right_comm, rounds_iff.mp hlater] at hstill
  cases hstill

structure LastRound (host : Host ω) (interval : Nat) (deadline : Option Nat)
    (begun : Supervisor σ × σ × ω) (count : Nat) (state : Supervisor σ × σ × ω) : Prop where
  begins : Rounds host interval deadline begun count state
  last : ∀ later other, Rounds host interval deadline begun later other → later ≤ count

theorem lastRound_and_iff {settled : Bool × Supervisor σ × σ × ω} :
    (LastRound host interval deadline begun count state ∧
      waitRound host interval deadline state = .inr settled) ↔
    Rounds host interval deadline begun count state ∧
      waitRound host interval deadline state = .inr settled :=
  ⟨fun h => ⟨h.1.begins, h.2⟩, fun h => ⟨⟨h.1, fun _ _ => h.1.le_of_settled h.2⟩, h.2⟩⟩

/-! ### The deadline -/

/-- A deadline is so much later than now, if the clock can name that time. -/
theorem waitDeadline_eq_some_iff {limit : Nat} : (waitDeadline host maxWait w).1 = some limit ↔
    ∃ longest, maxWait = some longest ∧ limit = (host.now w).1 + longest ∧
      limit / 1000000 ≤ lastSecond := by
  cases maxWait with
  | none => simp [waitDeadline]
  | some longest =>
    simp only [waitDeadline, deadline?, Option.some.injEq, exists_eq_left',
      Option.ite_none_right_eq_some]
    constructor
    · rintro ⟨hnamed, rfl⟩
      exact ⟨rfl, hnamed⟩
    · rintro ⟨rfl, hnamed⟩
      exact ⟨hnamed, rfl⟩

theorem waitDeadline_eq_none_iff : (waitDeadline host maxWait w).1 = none ↔
    maxWait = none ∨ ∃ longest, maxWait = some longest ∧
      lastSecond < ((host.now w).1 + longest) / 1000000 := by
  cases maxWait <;> simp [waitDeadline, deadline?]

/-! ### The verdict -/

theorem wait_eq_some_iff {verdict : Bool} :
    supervisor.wait host fuel interval maxWait s w = (some verdict, result) ↔
      ∃ count < fuel, ∃ state,
        LastRound host interval (waitDeadline host maxWait w).1
          (started host maxWait supervisor s w) count state ∧
        waitRound host interval (waitDeadline host maxWait w).1 state = .inr (verdict, result) := by
  simp only [lastRound_and_iff, rounds_iff, ← iterate_eq_inr_iff]
  simp only [wait, started]
  split <;> next h => simp [h]

theorem wait_eq_none_iff : supervisor.wait host fuel interval maxWait s w = (none, result) ↔
    Rounds host interval (waitDeadline host maxWait w).1 (started host maxWait supervisor s w) fuel
      result := by
  simp only [rounds_iff]
  simp only [wait, started]
  split <;> next h => simp [h]

/-- A wait sees the end of all children if the look of its last round leaves none. -/
theorem wait_eq_ended_iff : supervisor.wait host fuel interval maxWait s w = (some true, result) ↔
    ∃ count < fuel, ∃ state,
      LastRound host interval (waitDeadline host maxWait w).1
        (started host maxWait supervisor s w) count state ∧
      (look host state).1.isEmpty = true ∧ result = look host state := by
  rw [wait_eq_some_iff]
  simp only [waitRound_eq_ended_iff]

/-- A wait gives up if the look of its last round leaves some children and the clock is then past
the deadline. -/
theorem wait_eq_gaveUp_iff : supervisor.wait host fuel interval maxWait s w = (some false, result) ↔
    ∃ count < fuel, ∃ state,
      LastRound host interval (waitDeadline host maxWait w).1
        (started host maxWait supervisor s w) count state ∧
      (look host state).1.isEmpty = false ∧
        ∃ limit, (waitDeadline host maxWait w).1 = some limit ∧
          limit < (reading host interval state).1 ∧ result = timed host interval state := by
  rw [wait_eq_some_iff]
  simp only [waitRound_eq_gaveUp_iff]

/-- Between a look and a reading of the clock there is nothing but the pause. -/
theorem reading_logged (host : Host ω) (interval : Nat) (state : Supervisor σ × σ × ω × Log) :
    reading host.logged interval state =
      let (_, _, machine, log) := look host.logged state
      let (time, after) := host.now (host.sleep interval machine)
      (time, after, log ++ [.sleep interval, .now time]) := by
  have hcalls (log : Log) (time : Nat) :
      log ++ [.sleep interval] ++ [.now time] = log ++ [.sleep interval, .now time] :=
    List.append_assoc ..
  dsimp only
  rw [← hcalls]
  rfl

/-- **What a wait says.**  All children have ended if the look of the last round leaves none.  The
wait gives up if that look leaves some, there is a deadline, and the clock, which is read after a
pause, is past it; the registry is then as the look has left it, and nothing was asked of the system
since but the pause and the time.  There is no deadline, and the wait does not give up, if none was
asked for or the clock cannot name it. -/
theorem verdict_of_wait (host : Host ω) (fuel interval : Nat) (maxWait : Option Nat)
    (supervisor : Supervisor σ) (s : σ) (w : ω × Log) :
    let deadline := (waitDeadline host.logged maxWait w).1
    let begun := started host.logged maxWait supervisor s w
    let outcome := supervisor.wait host.logged fuel interval maxWait s w
    (∀ result, outcome = (some true, result) ↔
      ∃ count < fuel, ∃ state, LastRound host.logged interval deadline begun count state ∧
        (look host.logged state).1.isEmpty = true ∧ result = look host.logged state) ∧
    (∀ result, outcome = (some false, result) ↔
      ∃ count < fuel, ∃ state, LastRound host.logged interval deadline begun count state ∧
        let (left, shared, machine, log) := look host.logged state
        let (time, after) := host.now (host.sleep interval machine)
        left.isEmpty = false ∧ ∃ limit, deadline = some limit ∧ limit < time ∧
          result = (left, shared, after, log ++ [.sleep interval, .now time])) ∧
    (∀ result, outcome = (none, result) ↔
      Rounds host.logged interval deadline begun fuel result) ∧
    (∀ limit, deadline = some limit ↔ ∃ longest, maxWait = some longest ∧
      limit = (host.now w.1).1 + longest ∧ limit / 1000000 ≤ lastSecond) ∧
    (maxWait = none ∨ (∃ longest, maxWait = some longest ∧
      lastSecond < ((host.now w.1).1 + longest) / 1000000) → outcome.1 ≠ some false) := by
  intro deadline begun outcome
  refine ⟨fun result => wait_eq_ended_iff, fun result => ?_, fun result => wait_eq_none_iff,
    fun limit => waitDeadline_eq_some_iff, fun hnever hfalse => ?_⟩
  · simp only [outcome, wait_eq_gaveUp_iff, timed, reading_logged]
    rfl
  · obtain ⟨-, -, -, -, -, limit, hlimit, -⟩ := wait_eq_gaveUp_iff.mp (Prod.ext hfalse rfl)
    have hnone : deadline = none := waitDeadline_eq_none_iff.mpr hnever
    rw [show deadline = some limit from hlimit] at hnone
    cases hnone

end Chaperone.Supervisor
