import Chaperone.Proofs.Child.Refusal
import Chaperone.Proofs.Supervise.Account
import Chaperone.Proofs.Supervisor.Registry

/-!
# The summary of a run

A run launches the programs of its plan, waits for them, and if this wait gives up kills those that
are left and waits for these, or leaves them alone.  The outcomes are read off at the very end, from
the failures of the launches and from the exits that the callbacks have recorded meanwhile.

* `carryOut_eq`: a run by its parts, `launches`, `awaited` and `reaped`.
* `Stage.outcome_spec`: what an outcome says of a program and of the calls that were made for it.
* `sent_of_carryOut`: the signals of a run, of which all but those of the launches come after a wait
  that gave up.
* `summary_of_run`: what the summary says, and that it says nothing else.
-/

namespace Chaperone

variable {κ κ' ω : Type}

/-! ### Signals to all children -/

namespace Supervisor

variable {σ : Type}

/-- Every child whose exit was not seen is sent the signal, in the order of the registry. -/
theorem sent_signalEach (host : Host ω) (signal : Signal) {entries : List (Entry σ)}
    (h : ∀ entry ∈ entries, entry.child.status = none) (w : ω × Log) :
    sent (signalEach host.logged signal entries w).2 =
      sent w.2 ++ entries.map fun entry => (entry.child.target, signal) := by
  induction entries generalizing w with
  | nil => exact (List.append_nil _).symm
  | cons entry rest ih =>
    obtain ⟨hstatus, hrest⟩ := List.forall_mem_cons.mp h
    obtain ⟨hexited, -⟩ | ⟨-, result, hlog⟩ := entry.child.signal_cases host w signal
    · simp [Child.exited, hstatus] at hexited
    · have hone : sent (entry.child.signal host.logged signal w).2.2 =
          sent w.2 ++ [(entry.child.target, signal)] := by
        rw [hlog, sent, List.filterMap_append]
        rfl
      rw [signalEach, ih hrest, hone, List.append_assoc]
      rfl

/-- A wait without a limit does not give up. -/
theorem wait_ne_giveUp {host : Host ω} {fuel interval : Nat} {supervisor : Supervisor σ} {s : σ}
    {w : ω} : (supervisor.wait host fuel interval none s w).1 ≠ some false := by
  intro hverdict
  obtain ⟨count, last, -, hround⟩ := last_of_wait (Prod.ext hverdict rfl)
  obtain ⟨limit, hlimit, -⟩ := waitRound_giveUp hround
  cases hlimit

/-- Nobody is left when a wait has not given up. -/
theorem entries_of_wait {host : Host ω} {fuel interval : Nat} {maxWait : Option Nat}
    {supervisor : Supervisor σ} {s : σ} {w : ω}
    (h : (supervisor.wait host fuel interval maxWait s w).1 = some true) :
    (supervisor.wait host fuel interval maxWait s w).2.1.entries = [] :=
  List.isEmpty_iff.mp (Session.isEmpty_of_wait (Prod.ext h rfl))

end Supervisor

/-! ### A summary -/

theorem ExitStatus.success_iff (status : ExitStatus) :
    status.success = true ↔ status = .exited 0 := by
  cases status with
  | exited code => simp [success]
  | signaled signal => simp [success]

theorem Summary.success_iff (summary : Summary) :
    summary.success = true ↔
      summary.timedOut = false ∧ ∀ entry ∈ summary.outcomes, entry.2 = .exited (.exited 0) := by
  have houtcome (outcome : Outcome) :
      outcome.success = true ↔ outcome = .exited (.exited 0) := by
    cases outcome with
    | exited status => simp [Outcome.success, ExitStatus.success_iff]
    | failedToStart | abandoned => simp [Outcome.success]
  simp [Summary.success, houtcome]

namespace Supervise

theorem names_outcomes (exits : List (Nat × ExitStatus)) (first : Nat) (programs : List Program)
    {failures : List (Option Error)} (h : failures.length = programs.length) :
    (outcomes exits first programs failures).map (·.1) = programs.map (·.name) := by
  induction programs generalizing first failures with
  | nil => cases failures <;> rfl
  | cons program programs ih =>
    cases failures with
    | nil => cases h
    | cons failure failures =>
      rw [outcomes, List.map_cons, ih (first + 1) (Nat.succ.inj h)]
      rfl

/-! ### The parts of a run -/

def failure? : Except Error Pid → Option Error
  | .ok _ => none
  | .error cause => some cause

theorem failure?_eq_some {result : Except Error Pid} {cause : Error} :
    failure? result = some cause ↔ result = .error cause := by
  cases result <;> simp [failure?]

def Desk.noteLaunch (desk : Desk κ) (place : Nat) (program : Program) (time : Nat) :
    Except Error Pid → Record κ → Record κ
  | .ok _, record => record
  | .error cause, record =>
    desk.report place program.name (.spawnFailed cause.message) time record

theorem launchAll_cons (host : Host ω) (desk : Desk κ) (place : Nat) (program : Program)
    (rest : List Program) (supervisor : Supervisor (Record κ)) (record : Record κ) (w : ω) :
    launchAll host desk place (program :: rest) supervisor record w =
      let r := launch host program (desk.callbacks place program) supervisor record w
      let record' := desk.noteLaunch place program (host.wallClock r.2.2.2) r.1 r.2.2.1
      let others := launchAll host desk (place + 1) rest r.2.1 record' r.2.2.2
      (failure? r.1 :: others.1, others.2) := by
  rw [launchAll]
  generalize launch host program (desk.callbacks place program) supervisor record w = r
  obtain ⟨_ | _, _⟩ := r <;> rfl

theorem length_launchAll (host : Host ω) (desk : Desk κ) (first : Nat) (programs : List Program)
    (supervisor : Supervisor (Record κ)) (record : Record κ) (w : ω) :
    (launchAll host desk first programs supervisor record w).1.length = programs.length := by
  induction programs generalizing first supervisor record w with
  | nil => rfl
  | cons program rest ih =>
    rw [launchAll_cons]
    exact congrArg Nat.succ (ih ..)

/-- A launch goes on where the launches of the programs before it have ended. -/
theorem failure_launchAll (host : Host ω) (desk : Desk κ) (first : Nat) {programs : List Program}
    (supervisor : Supervisor (Record κ)) (record : Record κ) (w : ω) {place : Nat}
    {program : Program} (h : programs[place]? = some program) :
    (launchAll host desk first programs supervisor record w).1[place]? =
      let before := (launchAll host desk first (programs.take place) supervisor record w).2
      some (failure? (launch host program (desk.callbacks (first + place) program) before.1
        before.2.1 before.2.2).1) := by
  induction programs generalizing first supervisor record w place with
  | nil => cases h
  | cons head rest ih =>
    cases place with
    | zero =>
      obtain rfl := Option.some.inj h
      rw [launchAll_cons]
      rfl
    | succ place =>
      have hplace : first + (place + 1) = first + 1 + place := by omega
      rw [List.take_succ_cons, launchAll_cons, launchAll_cons, hplace]
      exact ih (first + 1) _ _ _ h

section Parts

variable (host : Host ω) (fuel : Nat) (plan : Plan) (desk : Desk κ) (kept : κ) (w : ω)

/-- What the launches of a plan leave, and which of them failed. -/
def launches : List (Option Error) × Supervisor (Record κ) × Record κ × ω :=
  launchAll host desk 0 plan.programs .new { kept } w

/-- What came of the launch of one program.  Those before it in the plan are launched first. -/
def launchOf (place : Nat) (program : Program) : Except Error Pid :=
  let before := (launchAll host desk 0 (plan.programs.take place) .new { kept } w).2
  (launch host program (desk.callbacks place program) before.1 before.2.1 before.2.2).1

/-- How the wait for the programs ended, and what it leaves. -/
def awaited : Option Bool × Supervisor (Record κ) × Record κ × ω :=
  let state := (launches host plan desk kept w).2
  state.1.wait host fuel (plan.pollingIntervalMs * 1000) (plan.maxWaitMs.map (· * 1000)) state.2.1
    state.2.2

def reaped : Option Bool × Supervisor (Record κ) × Record κ × ω :=
  let state := (awaited host fuel plan desk kept w).2
  state.1.wait host fuel (plan.pollingIntervalMs * 1000) none state.2.1
    (state.1.signalAll host .kill state.2.2)

/-- **A run by its parts.** -/
theorem carryOut_eq : carryOut host fuel plan desk kept w =
    let failures := (launches host plan desk kept w).1
    let first := awaited host fuel plan desk kept w
    let second := reaped host fuel plan desk kept w
    match first.1 with
    | none => (none, first.2.2.1.kept, first.2.2.2)
    | some true =>
      (some (summary plan failures first.2.2.1 false), first.2.2.1.kept, first.2.2.2)
    | some false =>
      if plan.terminateOnTimeout then
        (second.1.map fun _ => summary plan failures second.2.2.1 true, second.2.2.1.kept,
          second.2.2.2)
      else
        (some (summary plan failures first.2.2.1 true), first.2.2.1.kept,
          first.2.1.release host first.2.2.2) := by
  simp only [reaped, awaited, launches, carryOut]
  generalize launchAll host desk 0 plan.programs .new { kept } w = launched
  obtain ⟨failures, supervisor, record, w₁⟩ := launched
  dsimp only
  generalize supervisor.wait host fuel _ _ record w₁ = first
  obtain ⟨_ | _ | _, supervisor, record, w₂⟩ := first
  · rfl
  · dsimp only
    split
    · generalize supervisor.wait host fuel _ none record _ = second
      obtain ⟨_ | _, supervisor, record, w₃⟩ := second <;> rfl
    · rfl
  · rfl

/-- The launches give for each program what came of its launch. -/
theorem failure_launches {place : Nat} {program : Program}
    (h : plan.programs[place]? = some program) :
    (launches host plan desk kept w).1[place]? =
      some (failure? (launchOf host plan desk kept w place program)) := by
  have hlaunched := failure_launchAll host desk 0 .new { kept } w h
  rwa [Nat.zero_add] at hlaunched

theorem length_launches : (launches host plan desk kept w).1.length = plan.programs.length :=
  length_launchAll host desk 0 plan.programs .new { kept } w

end Parts

/-! ### Two desks -/

section Desks

variable {desk : Desk κ} {desk' : Desk κ'} {K : κ → κ' → Prop}

theorem launches_alike (h : desk.Alike desk' K) (host : Host ω) (plan : Plan) {k : κ} {k' : κ'}
    (hk : K k k') (w : ω) :
    (launches host plan desk k w).1 = (launches host plan desk' k' w).1 ∧
      h.likeness.States (launches host plan desk k w).2 (launches host plan desk' k' w).2 := by
  have hstart : Record.Alike K { kept := k } { kept := k' } := ⟨hk, rfl⟩
  have hnew : h.likeness.Supervisors .new .new := .nil
  exact launchAll_serves h.serves host 0 plan.programs hnew hstart w

theorem awaited_alike (h : desk.Alike desk' K) (host : Host ω) (fuel : Nat) (plan : Plan) {k : κ}
    {k' : κ'} (hk : K k k') (w : ω) :
    (awaited host fuel plan desk k w).1 = (awaited host fuel plan desk' k' w).1 ∧
      h.likeness.States (awaited host fuel plan desk k w).2
        (awaited host fuel plan desk' k' w).2 := by
  obtain ⟨-, hsupervisor, hrecord, hmachine⟩ := launches_alike h host plan hk w
  simp only [awaited, ← hmachine]
  exact Likeness.wait hsupervisor hrecord host ..

/-- The children that are left when the wait has ended do not depend on the desk. -/
theorem children_awaited (h : desk.Alike desk' K) (host : Host ω) (fuel : Nat) (plan : Plan)
    {k : κ} {k' : κ'} (hk : K k k') (w : ω) :
    (awaited host fuel plan desk k w).2.1.entries.map (·.child) =
      (awaited host fuel plan desk' k' w).2.1.entries.map (·.child) := by
  obtain ⟨-, hsupervisor, -, -⟩ := awaited_alike h host fuel plan hk w
  rw [Likeness.Supervisors] at hsupervisor
  generalize (awaited host fuel plan desk k w).2.1.entries = entries at hsupervisor ⊢
  generalize (awaited host fuel plan desk' k' w).2.1.entries = entries' at hsupervisor ⊢
  induction hsupervisor with
  | nil => rfl
  | cons hentry _ ih => rw [List.map_cons, List.map_cons, hentry.child, ih]

end Desks

/-- A ledger takes what any desk takes. -/
theorem Desk.alike_ledger (desk : Desk κ) :
    desk.Alike (.ledger desk.format) fun _ _ => True :=
  ⟨rfl, fun _ _ _ _ _ => trivial⟩

/-- How the launches and the wait go at any desk, a ledger shows. -/
theorem parts_ledger (host : Host ω) (fuel : Nat) (plan : Plan) (desk : Desk κ) (kept : κ) (w : ω) :
    let launched := launches host plan (.ledger desk.format) [] w
    let first := awaited host fuel plan (.ledger desk.format) [] w
    (launches host plan desk kept w).1 = launched.1 ∧
      (awaited host fuel plan desk kept w).1 = first.1 ∧
      (awaited host fuel plan desk kept w).2.1.entries.map (·.child) =
        first.2.1.entries.map (·.child) :=
  ⟨(launches_alike desk.alike_ledger host plan trivial w).1,
    (awaited_alike desk.alike_ledger host fuel plan trivial w).1,
    children_awaited desk.alike_ledger host fuel plan trivial w⟩

/-! ### The end of a run -/

section Ledger

variable (host : Host ω) (format : Format) (fuel : Nat) (plan : Plan) (w : ω)

/-- The stage after the launches and the wait. -/
theorem stage_of_awaited :
    let first := awaited host.logged fuel plan (.ledger format) [] (w, [])
    ∃ book, Stage host format plan.programs
      (launches host.logged plan (.ledger format) [] (w, [])).1 book first.2.1.entries first.2.2.1
      first.2.2.2 := by
  have hstart : Stage host format plan.programs [] [] (Supervisor.new : Supervisor _).entries
      { kept := [] } (w, []) := .start host format plan.programs w
  obtain ⟨-, book, hlaunched⟩ := hstart.launchAll rfl rfl rfl
  rw [List.nil_append] at hlaunched
  exact hlaunched.wait ..

/-- The stage after the wait for those who were left and then killed. -/
theorem stage_of_reaped :
    let second := reaped host.logged fuel plan (.ledger format) [] (w, [])
    ∃ book, Stage host format plan.programs
      (launches host.logged plan (.ledger format) [] (w, [])).1 book second.2.1.entries
      second.2.2.1 second.2.2.2 := by
  obtain ⟨book, hwaited⟩ := stage_of_awaited host format fuel plan w
  obtain ⟨book', hkilled⟩ := hwaited.signalAll .kill
  exact hkilled.wait ..

/-- The stage at the end of a run.  If there is a summary it is made of this stage, and those who
were left when the run gave up are playing still. -/
theorem stage_of_carryOut :
    let failures := (launches host.logged plan (.ledger format) [] (w, [])).1
    let first := awaited host.logged fuel plan (.ledger format) [] (w, [])
    let r := carryOut host.logged fuel plan (.ledger format) [] (w, [])
    ∃ book entries record, Stage host format plan.programs failures book entries record r.2.2 ∧
      record.kept = r.2.1 ∧
      ∀ result, r.1 = some result →
        result = summary plan failures record result.timedOut ∧
          first.1 = some (!result.timedOut) ∧
          entries = if result.timedOut = true ∧ plan.terminateOnTimeout = false then
            first.2.1.entries else [] := by
  obtain ⟨book, hwaited⟩ := stage_of_awaited host format fuel plan w
  obtain ⟨book', hreaped⟩ := stage_of_reaped host format fuel plan w
  have hnobody : (awaited host.logged fuel plan (.ledger format) [] (w, [])).1 = some true →
      (awaited host.logged fuel plan (.ledger format) [] (w, [])).2.1.entries = [] :=
    Supervisor.entries_of_wait
  have hnobody' : (reaped host.logged fuel plan (.ledger format) [] (w, [])).1 = some true →
      (reaped host.logged fuel plan (.ledger format) [] (w, [])).2.1.entries = [] :=
    Supervisor.entries_of_wait
  have hgoes : (reaped host.logged fuel plan (.ledger format) [] (w, [])).1 ≠ some false :=
    Supervisor.wait_ne_giveUp
  rw [carryOut_eq]
  generalize (launches host.logged plan (.ledger format) [] (w, [])).1 = failures at *
  generalize awaited host.logged fuel plan (.ledger format) [] (w, []) = first at *
  generalize reaped host.logged fuel plan (.ledger format) [] (w, []) = second at *
  obtain ⟨verdict, supervisor, record, w₁⟩ := first
  obtain ⟨verdict', supervisor', record', w₂⟩ := second
  rcases verdict with _ | _ | _
  · exact ⟨book, _, record, hwaited, rfl, by rintro result ⟨⟩⟩
  · by_cases hterminate : plan.terminateOnTimeout = true
    · dsimp only
      rw [if_pos hterminate]
      refine ⟨book', supervisor'.entries, record', hreaped, rfl, ?_⟩
      intro result hresult
      rcases verdict' with _ | _ | _
      · cases hresult
      · exact absurd rfl hgoes
      · obtain rfl := Option.some.inj hresult
        exact ⟨rfl, rfl, by simpa [hterminate] using hnobody' rfl⟩
    · obtain ⟨book', hreleased⟩ := hwaited.release
      dsimp only
      rw [if_neg hterminate]
      refine ⟨book', supervisor.entries, record, hreleased, rfl, ?_⟩
      rintro result ⟨⟩
      exact ⟨rfl, rfl, by simp [summary, hterminate]⟩
  · refine ⟨book, _, record, hwaited, rfl, ?_⟩
    rintro result ⟨⟩
    exact ⟨rfl, rfl, by simpa [summary] using hnobody rfl⟩

end Ledger

/-! ### What an outcome says -/

section Outcomes

variable {host : Host ω} {format : Format} {program : Program} {own : Log}

theorem reported_of_course {exit : Option ExitStatus} {events : List Event}
    (h : Course host format program own exit events) : reported own = exit.toList := by
  obtain ⟨child, last, contents, -, htracks, hstatus, -⟩ := h
  rw [htracks.reported, hstatus]

theorem reported_of_refused {cause : SpawnError} (h : program.Refused host cause own) :
    reported own = [] := by
  obtain ⟨w, w', hspawn, rfl⟩ := h
  exact reported_of_asked (asked_of_spawn hspawn)

/-- An exit is the outcome if it was reported by the answers to the questions about the program. -/
theorem Agrees.exited_iff_reported {events : List Event} {outcome : Outcome}
    (h : Agrees host format program own events outcome) (status : ExitStatus) :
    outcome = .exited status ↔ reported own = [status] := by
  cases h with
  | failed hrefused timestamp => simp [reported_of_refused hrefused]
  | abandoned hcourse => simp [reported_of_course hcourse]
  | exited hcourse => simp [reported_of_course hcourse]

theorem outcome_eq_failedToStart (exits : List (Nat × ExitStatus)) (place : Nat)
    (failure : Option Error) (error : String) :
    outcome exits place failure = .failedToStart error ↔
      ∃ cause, failure = some cause ∧ error = cause.message := by
  cases failure with
  | some cause => simp [outcome, eq_comm]
  | none =>
    rw [outcome]
    split <;> simp

/-- What the outcome of a program says: that its launch failed and why, or with which status it has
ended, as was reported for it. -/
theorem Stage.outcome_spec {plan : Plan} {failures : List (Option Error)} {book : Book}
    {entries : List (Entry (Record Ledger))} {record : Record Ledger} {w : ω × Log}
    (h : Stage host format plan.programs failures book entries record w) {place : Nat}
    (hprogram : plan.programs[place]? = some program) {launched : Except Error Pid}
    (hlaunched : failures[place]? = some (failure? launched)) :
    let outcome := outcome record.exits place (failure? launched)
    Agrees host format program (book.own place) (record.kept.own place) outcome ∧
      (∀ error, outcome = .failedToStart error ↔
        ∃ cause, error = cause.message ∧ launched = .error cause) ∧
      ∀ status, outcome = .exited status ↔ reported (book.own place) = [status] := by
  have hagrees := h.agrees hprogram hlaunched
  refine ⟨hagrees, ?_, hagrees.exited_iff_reported⟩
  intro error
  rw [outcome_eq_failedToStart]
  simp only [failure?_eq_some, and_comm]

def Belongs (host : Host ω) (plan : Plan) (book : Book) (place : Nat) (child : Child) : Prop :=
  ∃ program start, plan.programs[place]? = some program ∧
    program.Starts host start (book.own place) ∧ Tracks child (book.own place) ∧
    child.status = none

/-- A program that is not playing was not abandoned. -/
theorem ne_abandoned_of_fate {exits : List (Nat × ExitStatus)} {place : Nat}
    {failure : Option Error} {events : List Event}
    (h : Fate host format (some program) (some failure) own events (exits.lookup place)) :
    outcome exits place failure ≠ .abandoned := by
  generalize hexit : exits.lookup place = exit at h
  cases h with
  | failed hrefused timestamp => simp [outcome]
  | ended hcourse => simp [outcome, hexit]

/-- The outcome is that a program was abandoned if its child is in the registry at the end. -/
theorem Stage.abandoned_iff {plan : Plan} {failures : List (Option Error)} {book : Book}
    {entries : List (Entry (Record Ledger))} {record : Record Ledger} {w : ω × Log}
    (h : Stage host format plan.programs failures book entries record w) :
    ∃ left : List Nat, left.Nodup ∧
      List.Forall₂ (Belongs host plan book) left (entries.map (·.child)) ∧
      ∀ place program failure, plan.programs[place]? = some program →
        failures[place]? = some failure →
          (outcome record.exits place failure = .abandoned ↔ place ∈ left) := by
  obtain ⟨-, -, left, hleft, hplays, hlaunched, hfates⟩ := h
  refine ⟨left, hleft, ?_, ?_⟩
  · rw [List.forall₂_map_right_iff]
    refine hplays.imp ?_
    rintro place entry ⟨program, hprogram, hplaying⟩
    obtain ⟨start, pieces, hstarts, -⟩ := hplaying.account
    exact ⟨program, start, hprogram, hstarts, hplaying.tracks, hplaying.status⟩
  · intro place program failure hprogram hfailure
    constructor
    · intro habandoned
      by_contra hplace
      have hfate := hfates place hplace
      rw [hprogram, hfailure] at hfate
      exact ne_abandoned_of_fate hfate habandoned
    · intro hplace
      obtain ⟨entry, program', -, hplaying⟩ := Session.exists_of_forall₂ hplays hplace
      obtain rfl := Option.some.inj (hfailure.symm.trans (hlaunched place hplace))
      rw [outcome, hplaying.exits]

end Outcomes

/-! ### The signals of a run -/

section Signals

variable (host : Host ω) (fuel : Nat) (plan : Plan) (desk : Desk κ) (kept : κ) (w : ω)

/-- Whatever the pipes answer, the wait sends no signal. -/
theorem gentle_awaited :
    let first := awaited host.logged fuel plan desk kept (w, [])
    (∀ entry ∈ first.2.1.entries, entry.Calm) ∧
      Only Call.Gentle (launches host.logged plan desk kept (w, [])).2.2.2 first.2.2.2 := by
  have hnone : ∀ entry ∈ (Supervisor.new : Supervisor (Record κ)).entries, entry.Calm :=
    fun _ hentry => absurd hentry List.not_mem_nil
  obtain ⟨hcalm, -⟩ := opens_launchAll host hnone desk 0 plan.programs { kept } (w, [])
  have hbegin : Supervisor.Eased (launches host.logged plan desk kept (w, [])).2.2.2
      (launches host.logged plan desk kept (w, [])).2 := ⟨hcalm, .refl _ _⟩
  exact (Supervisor.keeps_eased host _).wait fuel _ _ hbegin

/-- Neither does the wait for those who were killed. -/
theorem gentle_reaped :
    let first := awaited host.logged fuel plan desk kept (w, [])
    Only Call.Gentle (first.2.1.signalAll host.logged .kill first.2.2.2)
      (reaped host.logged fuel plan desk kept (w, [])).2.2.2 := by
  intro first
  obtain ⟨hcalm, -⟩ := gentle_awaited host fuel plan desk kept w
  have hbegin : Supervisor.Eased (first.2.1.signalAll host.logged .kill first.2.2.2)
      (first.2.1, first.2.2.1, first.2.1.signalAll host.logged .kill first.2.2.2) :=
    ⟨hcalm, .refl _ _⟩
  exact ((Supervisor.keeps_eased host _).wait fuel _ _ hbegin).2

/-- The exit of a child that is left when the wait has ended was not seen. -/
theorem status_awaited :
    ∀ entry ∈ (awaited host.logged fuel plan desk kept (w, [])).2.1.entries,
      entry.child.status = none := by
  intro entry hentry
  obtain ⟨-, -, hchildren⟩ := parts_ledger host.logged fuel plan desk kept (w, [])
  have hchild := List.mem_map_of_mem (f := (·.child)) hentry
  rw [hchildren] at hchild
  obtain ⟨other, hother, hsame⟩ := List.mem_map.mp hchild
  obtain ⟨book, -, -, places, -, hplays, -⟩ := stage_of_awaited host desk.format fuel plan w
  obtain ⟨place, program, -, hplaying⟩ := Session.exists_of_forall₂ hplays.flip hother
  rw [← hsame]
  exact hplaying.status

/-- **The signals of a run** after the launches: none unless the wait gives up and the plan says
that those who are left are to be killed; then each of these is killed, once. -/
theorem sent_of_carryOut :
    let launched := launches host.logged plan desk kept (w, [])
    let first := awaited host.logged fuel plan desk kept (w, [])
    sent (carryOut host.logged fuel plan desk kept (w, [])).2.2.2 =
      sent launched.2.2.2.2 ++
        if first.1 = some false ∧ plan.terminateOnTimeout = true then
          first.2.1.entries.map fun entry => (entry.child.target, .kill)
        else [] := by
  have hfirst := (gentle_awaited host fuel plan desk kept w).2.sent_eq fun _ h => h.signal?
  have hsecond := (gentle_reaped host fuel plan desk kept w).sent_eq fun _ h => h.signal?
  have hkilled := Supervisor.sent_signalEach host .kill
    (status_awaited host fuel plan desk kept w)
    (awaited host.logged fuel plan desk kept (w, [])).2.2.2
  have hreleased := ((awaited host.logged fuel plan desk kept (w, [])).2.1.closes_release host
    (awaited host.logged fuel plan desk kept (w, [])).2.2.2).sent_eq (by rintro _ ⟨d, rfl⟩; rfl)
  rw [carryOut_eq]
  rw [Supervisor.signalAll, hkilled] at hsecond
  generalize awaited host.logged fuel plan desk kept (w, []) = first at *
  generalize reaped host.logged fuel plan desk kept (w, []) = second at *
  obtain ⟨_ | _ | _, supervisor, record, w₁⟩ := first
  · simpa using hfirst
  · by_cases hterminate : plan.terminateOnTimeout = true
    · simp only [hterminate]
      exact hsecond.trans (congrArg (· ++ _) hfirst)
    · simp only [hterminate]
      simpa using hreleased.trans hfirst
  · simpa using hfirst

end Signals

/-! ### The summary -/

/-- What the summary of a run says.  The book says for which program each call was made, and the
programs at the places `left` are those that were abandoned. -/
structure Summarizes (host : Host ω) (fuel : Nat) (plan : Plan) (reporter : Reporter κ) (sink : κ)
    (w : ω) (book : Book) (left : List Nat) (result : Summary) : Prop where
  names : result.outcomes.map (·.1) = plan.programs.map (·.name)
  timedOut : (awaited host.logged fuel plan reporter.desk sink (w, [])).1 = some (!result.timedOut)
  /-- An outcome is the failure of the launch, or an exit that was reported, or neither. -/
  outcomes : ∀ place program, plan.programs[place]? = some program → ∃ outcome,
    result.outcomes[place]? = some (program.name, outcome) ∧
      Agrees host reporter.format program (book.own place)
        ((ledgerOf host.logged fuel plan reporter.format (w, [])).own place) outcome ∧
      (∀ error, outcome = .failedToStart error ↔ ∃ cause, error = cause.message ∧
        launchOf host.logged plan reporter.desk sink (w, []) place program = .error cause) ∧
      (∀ status, outcome = .exited status ↔ reported (book.own place) = [status]) ∧
      (outcome = .abandoned ↔ place ∈ left)
  /-- Who is abandoned was in the registry when the wait gave up, and nobody else was. -/
  registered : result.timedOut = true → plan.terminateOnTimeout = false →
    left.Nodup ∧ List.Forall₂ (Belongs host plan book) left
      ((awaited host.logged fuel plan reporter.desk sink (w, [])).2.1.entries.map (·.child))
  /-- Nobody is abandoned who is waited for. -/
  nobody : result.timedOut = false ∨ plan.terminateOnTimeout = true → left = []
  success : result.success = true ↔ result.timedOut = false ∧
    ∀ place < plan.programs.length, reported (book.own place) = [.exited 0]

/-- A summary is a success if each program has exited with code 0, as was reported for it. -/
theorem success_iff_reported {plan : Plan} {result : Summary} {book : Book}
    (hlength : result.outcomes.length = plan.programs.length)
    (houtcome : ∀ place program, plan.programs[place]? = some program → ∃ outcome,
      result.outcomes[place]? = some (program.name, outcome) ∧
        ∀ status, outcome = .exited status ↔ reported (book.own place) = [status]) :
    result.success = true ↔ result.timedOut = false ∧
      ∀ place < plan.programs.length, reported (book.own place) = [.exited 0] := by
  rw [Summary.success_iff]
  refine and_congr_right fun _ => ⟨?_, ?_⟩
  · intro hall place hplace
    obtain ⟨outcome, hat, hexited⟩ := houtcome place _ (List.getElem?_eq_getElem hplace)
    exact (hexited _).mp (hall _ (List.mem_of_getElem? hat))
  · intro hall entry hentry
    obtain ⟨place, hplace⟩ := List.mem_iff_getElem?.mp hentry
    have hlt : place < plan.programs.length := by
      rw [← hlength]
      exact (List.getElem?_eq_some_iff.mp hplace).1
    obtain ⟨outcome, hat, hexited⟩ := houtcome place _ (List.getElem?_eq_getElem hlt)
    obtain rfl := Option.some.inj (hplace.symm.trans hat)
    exact (hexited _).mpr (hall place hlt)

/-- A run has no summary as long as it waits. -/
theorem carryOut_eq_none (host : Host ω) (fuel : Nat) (plan : Plan) (desk : Desk κ) (kept : κ)
    (w : ω) :
    (carryOut host fuel plan desk kept w).1 = none ↔
      (awaited host fuel plan desk kept w).1 = none ∨
        (awaited host fuel plan desk kept w).1 = some false ∧ plan.terminateOnTimeout = true ∧
          (reaped host fuel plan desk kept w).1 = none := by
  rw [carryOut_eq]
  generalize awaited host fuel plan desk kept w = first
  generalize reaped host fuel plan desk kept w = second
  obtain ⟨_ | _ | _, supervisor, record, w₁⟩ := first
  · simp
  · by_cases hterminate : plan.terminateOnTimeout = true <;> simp [hterminate]
  · simp

/-- **The summary of a run.**  It has one outcome for each program, in the order of the plan and
under its name.

* A program failed to start if its launch, after those before it, failed; it has exited with the
  status that was reported for it; or it was abandoned.
* The run is reported as timed out if the wait for the programs gave up.  Then those who are left
  are killed, once each, if the plan says so, and otherwise nothing is sent to them; this is all
  that is sent after the launches.
* Abandoned are those who are left when the wait gives up and are not killed.
* It is a success if it did not time out and every program was started and exited with code 0.

There is no summary only as long as the run waits. -/
theorem summary_of_run (host : Host ω) (fuel : Nat) (plan : Plan) (reporter : Reporter κ) (sink : κ)
    (w : ω) :
    let r := run host.logged fuel plan reporter sink (w, [])
    let launched := launches host.logged plan reporter.desk sink (w, [])
    let first := awaited host.logged fuel plan reporter.desk sink (w, [])
    let second := reaped host.logged fuel plan reporter.desk sink (w, [])
    run host fuel plan reporter sink w = (r.1, r.2.1, r.2.2.1) ∧
      (r.1 = none ↔ first.1 = none ∨
        first.1 = some false ∧ plan.terminateOnTimeout = true ∧ second.1 = none) ∧
      sent r.2.2.2 = sent launched.2.2.2.2 ++
        (if first.1 = some false ∧ plan.terminateOnTimeout = true then
          first.2.1.entries.map fun entry => (entry.child.target, .kill)
        else []) ∧
      ∃ book : Book, book.log = r.2.2.2 ∧ ∀ result, r.1 = some result →
        ∃ left, Summarizes host fuel plan reporter sink w book left result := by
  refine ⟨run_logged host fuel plan reporter sink (w, []), carryOut_eq_none ..,
    sent_of_carryOut host fuel plan reporter.desk sink w, ?_⟩
  obtain ⟨book, entries, record, hstage, hkept, hsummary⟩ :=
    stage_of_carryOut host reporter.format fuel plan w
  obtain ⟨left, hnodup, hbelongs, habandoned⟩ := hstage.abandoned_iff
  have hrun := run_reports host.logged fuel plan reporter sink (w, [])
  refine ⟨book, by rw [hrun]; exact hstage.log, ?_⟩
  intro result hresult
  rw [hrun] at hresult
  obtain ⟨hmade, hverdict, hentries⟩ := hsummary result hresult
  -- What the reporter sees of the run is what the ledger sees of it.
  obtain ⟨hfailures, hfirst, hchildren⟩ :=
    parts_ledger host.logged fuel plan reporter.desk sink (w, [])
  have hlength := length_launches host.logged plan reporter.desk sink (w, [])
  have hlaunched {place : Nat} {program : Program} (h : plan.programs[place]? = some program) :=
    failure_launches host.logged plan reporter.desk sink (w, []) h
  rw [hfailures] at hlength
  simp only [hfailures] at hlaunched
  have hnames : result.outcomes.map (·.1) = plan.programs.map (·.name) := by
    rw [hmade]
    exact names_outcomes record.exits 0 plan.programs hlength
  have houtcome {place : Nat} {program : Program} (h : plan.programs[place]? = some program) :
      result.outcomes[place]? = some (program.name,
        outcome record.exits place
          (failure? (launchOf host.logged plan reporter.desk sink (w, []) place program))) := by
    have hplace := outcomes_getElem? record.exits 0 h (hlaunched h)
    rw [Nat.zero_add] at hplace
    rw [hmade]
    exact hplace
  have hspec {place : Nat} {program : Program} (h : plan.programs[place]? = some program) :=
    hstage.outcome_spec h (hlaunched h)
  refine ⟨left, hnames, hfirst.trans hverdict, ?_, ?_, ?_, ?_⟩
  · intro place program hprogram
    obtain ⟨hagrees, hfailed, hexited⟩ := hspec hprogram
    rw [hkept] at hagrees
    exact ⟨_, houtcome hprogram, hagrees, hfailed, hexited,
      habandoned place program _ hprogram (hlaunched hprogram)⟩
  · intro htimedOut hterminate
    rw [hentries, if_pos ⟨htimedOut, hterminate⟩] at hbelongs
    rw [hchildren]
    exact ⟨hnodup, hbelongs⟩
  · intro hwaited
    have hnone : ¬(result.timedOut = true ∧ plan.terminateOnTimeout = false) := by
      rintro ⟨htimedOut, hterminate⟩
      rcases hwaited with hintime | hkilled
      · cases hintime.symm.trans htimedOut
      · cases hkilled.symm.trans hterminate
    rw [hentries, if_neg hnone] at hbelongs
    cases hbelongs
    rfl
  · refine success_iff_reported ?_ fun place program hprogram =>
      ⟨_, houtcome hprogram, (hspec hprogram).2.2⟩
    have hcount := congrArg List.length hnames
    rwa [List.length_map, List.length_map] at hcount

end Supervise

end Chaperone
