import Chaperone.Proofs.Supervisor.Session

/-!
# The rounds of a wait

A wait is a loop of rounds.  What a look, a pause and a reading of the clock keep, the whole wait
keeps (`Supervisor.Keeps.wait`).  `Supervisor.waitRound_eq` says what a round comes to: a wait gives
up in a round whose look has left some children, after the pause of this round and without another
look.
-/

namespace Chaperone.Supervisor

variable {σ ω : Type} {host : Host ω}

/-! ### What a wait keeps -/

structure Keeps (host : Host ω) (P : Supervisor σ × σ × ω → Prop) : Prop where
  poll : ∀ supervisor s w, P (supervisor, s, w) → P (supervisor.poll host s w).2
  sleep : ∀ supervisor s w time, P (supervisor, s, w) → P (supervisor, s, host.sleep time w)
  now : ∀ supervisor s w, P (supervisor, s, w) → P (supervisor, s, (host.now w).2)

def started (host : Host ω) (maxWait : Option Nat) (supervisor : Supervisor σ) (s : σ) (w : ω) :
    Supervisor σ × σ × ω :=
  (supervisor, s, (waitDeadline host maxWait w).2)

namespace Keeps

variable {P : Supervisor σ × σ × ω → Prop}

theorem round (h : Keeps host P) (interval : Nat) (deadline : Option Nat)
    {state : Supervisor σ × σ × ω} (hstate : P state) :
    Sum.elim P (fun result => P result.2) (waitRound host interval deadline state) := by
  have hlook := h.poll _ _ _ hstate
  simp only [waitRound]
  generalize state.1.poll host state.2.1 state.2.2 = r at hlook ⊢
  obtain ⟨left, supervisor, s, w⟩ := r
  cases left with
  | false => exact hlook
  | true =>
    have hslept := h.sleep _ _ _ interval hlook
    cases deadline with
    | none => exact hslept
    | some deadline =>
      have hread := h.now _ _ _ hslept
      dsimp only
      split <;> exact hread

theorem started (h : Keeps host P) (maxWait : Option Nat) {supervisor : Supervisor σ} {s : σ}
    {w : ω} (hstate : P (supervisor, s, w)) : P (started host maxWait supervisor s w) := by
  cases maxWait with
  | none => exact hstate
  | some maxWait => exact h.now _ _ _ hstate

theorem rounds (h : Keeps host P) (interval : Nat) (deadline : Option Nat) (count : Nat)
    {state : Supervisor σ × σ × ω} (hstate : P state) :
    Sum.elim P (fun result => P result.2)
      (iterate (waitRound host interval deadline) count state) :=
  iterate_keeps (fun _ => h.round interval deadline) count hstate

/-- What looks, pauses and readings of the clock keep, a wait keeps. -/
theorem wait (h : Keeps host P) (fuel interval : Nat) (maxWait : Option Nat)
    {supervisor : Supervisor σ} {s : σ} {w : ω} (hstate : P (supervisor, s, w)) :
    P (supervisor.wait host fuel interval maxWait s w).2 := by
  have hrounds := h.rounds interval (waitDeadline host maxWait w).1 fuel (h.started maxWait hstate)
  rw [Session.snd_wait]
  change P (Sum.elim id Prod.snd (iterate _ fuel (Supervisor.started host maxWait supervisor s w)))
  generalize iterate _ fuel _ = r at hrounds ⊢
  cases r <;> exact hrounds

end Keeps

/-! ### How a wait ends -/

variable {interval : Nat} {deadline : Option Nat} {state result : Supervisor σ × σ × ω}

def reading (host : Host ω) (interval : Nat) (state : Supervisor σ × σ × ω) : Nat × ω :=
  host.now (host.sleep interval (state.1.poll host state.2.1 state.2.2).2.2.2)

def look (host : Host ω) (state : Supervisor σ × σ × ω) : Supervisor σ × σ × ω :=
  (state.1.poll host state.2.1 state.2.2).2

def rested (host : Host ω) (interval : Nat) (state : Supervisor σ × σ × ω) : Supervisor σ × σ × ω :=
  ((look host state).1, (look host state).2.1, host.sleep interval (look host state).2.2)

def timed (host : Host ω) (interval : Nat) (state : Supervisor σ × σ × ω) : Supervisor σ × σ × ω :=
  ((look host state).1, (look host state).2.1, (reading host interval state).2)

/-- What a round comes to. -/
theorem waitRound_eq (host : Host ω) (interval : Nat) (deadline : Option Nat)
    (state : Supervisor σ × σ × ω) : waitRound host interval deadline state =
      if (look host state).1.isEmpty then .inr (true, look host state)
      else match deadline with
        | none => .inl (rested host interval state)
        | some limit =>
          if limit < (reading host interval state).1 then .inr (false, timed host interval state)
          else .inl (timed host interval state) := by
  obtain ⟨supervisor, s, w⟩ := state
  have hleft : (supervisor.poll host s w).1 = !(supervisor.poll host s w).2.1.isEmpty := rfl
  rcases hlook : supervisor.poll host s w with ⟨left, supervisor', s', w'⟩
  rw [hlook] at hleft
  simp only [waitRound, timed, rested, reading, look, hlook]
  cases left with
  | false =>
    have hempty : supervisor'.isEmpty = true := by simpa using hleft
    exact (if_pos hempty).symm
  | true =>
    have hsome : supervisor'.isEmpty = false := by simpa using hleft
    cases deadline <;> exact (if_neg (ne_true_of_eq_false hsome)).symm

/-- A round goes on when children are left, and the deadline, if there is one, is not past. -/
theorem waitRound_eq_inl_iff : waitRound host interval deadline state = .inl result ↔
    (look host state).1.isEmpty = false ∧
      (deadline = none ∧ result = rested host interval state ∨
        ∃ limit, deadline = some limit ∧ (reading host interval state).1 ≤ limit ∧
          result = timed host interval state) := by
  rw [waitRound_eq]
  split
  · next hempty => simp [hempty]
  · next hleft =>
    cases deadline with
    | none => simp [hleft, eq_comm]
    | some limit =>
      dsimp only
      split
      · next hpast => simp [Nat.not_le_of_lt hpast]
      · next hearly => simp [hleft, Nat.le_of_not_lt hearly, eq_comm]

/-- A round ends the wait when no child is left. -/
theorem waitRound_eq_ended_iff : waitRound host interval deadline state = .inr (true, result) ↔
    (look host state).1.isEmpty = true ∧ result = look host state := by
  rw [waitRound_eq]
  split
  · next hempty => simp [hempty, eq_comm]
  · next hleft =>
    cases deadline with
    | none => simp [hleft]
    | some limit =>
      dsimp only
      split <;> simp [hleft]

/-- A round gives up when children are left and the clock, which is read after the pause, is past
the deadline. -/
theorem waitRound_eq_gaveUp_iff : waitRound host interval deadline state = .inr (false, result) ↔
    (look host state).1.isEmpty = false ∧ ∃ limit, deadline = some limit ∧
      limit < (reading host interval state).1 ∧ result = timed host interval state := by
  rw [waitRound_eq]
  split
  · next hempty => simp [hempty]
  · next hleft =>
    cases deadline with
    | none => simp
    | some limit =>
      dsimp only
      split
      · next hpast => simp [hleft, hpast, eq_comm]
      · next hearly => simp [hearly]

/-- A round that gives up has left some children, and the clock is past the deadline. -/
theorem waitRound_giveUp (h : waitRound host interval deadline state = .inr (false, result)) :
    let look := state.1.poll host state.2.1 state.2.2
    ∃ limit, deadline = some limit ∧ limit < (reading host interval state).1 ∧
      look.1 = true ∧ result = (look.2.1, look.2.2.1, (reading host interval state).2) := by
  obtain ⟨hleft, limit, hlimit, hpast, hresult⟩ := waitRound_eq_gaveUp_iff.mp h
  exact ⟨limit, hlimit, hpast, congrArg not hleft, hresult⟩

/-- A round that goes on has let time pass, and has read the clock when there is a deadline. -/
theorem waitRound_next (h : waitRound host interval deadline state = .inl result) :
    result.2.2 = host.sleep interval (state.1.poll host state.2.1 state.2.2).2.2.2 ∨
      result.2.2 = (reading host interval state).2 := by
  obtain ⟨-, ⟨-, rfl⟩ | ⟨limit, -, -, rfl⟩⟩ := waitRound_eq_inl_iff.mp h
  · exact Or.inl rfl
  · exact Or.inr rfl

theorem wait_of_iterate {fuel : Nat} {maxWait : Option Nat} {supervisor : Supervisor σ} {s : σ}
    {w : ω} {verdict : Bool}
    (h : iterate (waitRound host interval (waitDeadline host maxWait w).1) fuel
      (started host maxWait supervisor s w) = .inr (verdict, result)) :
    supervisor.wait host fuel interval maxWait s w = (some verdict, result) := by
  rw [started] at h
  simp only [wait, h]

/-- A wait gives the verdict of its last round. -/
theorem last_of_wait {fuel : Nat} {maxWait : Option Nat} {supervisor : Supervisor σ} {s : σ}
    {w : ω} {verdict : Bool}
    (h : supervisor.wait host fuel interval maxWait s w = (some verdict, result)) :
    let round := waitRound host interval (waitDeadline host maxWait w).1
    ∃ count last, iterate round count (started host maxWait supervisor s w) = .inl last ∧
      round last = .inr (verdict, result) := by
  simp only [wait] at h
  split at h
  · cases h
  · next hloop =>
    obtain ⟨⟨⟩, rfl⟩ := Prod.mk.inj h
    obtain ⟨count, -, last, hlast, hround⟩ := exists_last_of_iterate hloop
    exact ⟨count, last, hlast, hround⟩

/-- A wait that gives up does so in a round that begins in a state like all others. -/
theorem Keeps.last {P : Supervisor σ × σ × ω → Prop} (h : Keeps host P) {fuel : Nat}
    {maxWait : Option Nat} {supervisor : Supervisor σ} {s : σ} {w : ω}
    (hstate : P (supervisor, s, w))
    (hwait : supervisor.wait host fuel interval maxWait s w = (some false, result)) :
    ∃ last, P last ∧
      waitRound host interval (waitDeadline host maxWait w).1 last = .inr (false, result) := by
  obtain ⟨count, last, hlast, hround⟩ := last_of_wait hwait
  have hrounds := h.rounds interval (waitDeadline host maxWait w).1 count (h.started maxWait hstate)
  rw [hlast] at hrounds
  exact ⟨last, hrounds, hround⟩

end Chaperone.Supervisor
