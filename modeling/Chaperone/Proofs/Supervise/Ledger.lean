import Chaperone.Proofs.Supervisor.Hom
import Chaperone.Proofs.Supervisor.Likeness
import Chaperone.Supervise.Basic

/-!
# The events of a plan

What programs do does not depend on the desk that takes their events.  So there is one ledger of all
events of a run, each with the place of its program, and whoever reports the run reports these
events in this order.

* `Supervise.carryOut_serves`: two desks whose callbacks belong together see the same run, and so do
  two desks of one format (`Supervise.carryOut_alike`).
* `Supervise.carryOut_notes`, `Supervise.run_reports`: what a desk or a reporter makes of a run is
  what it makes of the ledger.
* `Supervise.run_logged`: to keep a log changes nothing.
-/

namespace Chaperone.Supervise

variable {κ κ' ω : Type}

def Desk.callbacksOn (desk : Desk κ) (place : Nat) (program : Program) (notes : Notes) :
    Callbacks (Record κ) :=
  { (desk.callbacks place program).remember notes with onStarted := none }

def Notes.push (format : Format) (stream : OutputStream) (piece : String) (notes : Notes) :
    Notes × Option String :=
  match format with
  | .json => (notes, some piece)
  | .text =>
    let (buffer, whole) := (notes.buffer stream).push piece
    (notes.withBuffer buffer stream, whole)

theorem Desk.takeOutput_eq (desk : Desk κ) (place : Nat) (name : String) (stream : OutputStream)
    (time : Nat) (piece : String) (notes : Notes) (record : Record κ) :
    desk.takeOutput place name stream time piece notes record =
      ((notes.push desk.format stream piece).1,
        desk.reportOutput place name stream notes.pid time
          (notes.push desk.format stream piece).2 record) := by
  simp only [takeOutput, Notes.push]
  cases desk.format <;> rfl

/-! ### Desks of one format -/

/-- Two desks of one format, and which of the things that they keep belong together. -/
structure Desk.Alike (desk : Desk κ) (desk' : Desk κ') (K : κ → κ' → Prop) : Prop where
  format : desk.format = desk'.format
  note : ∀ place event k k', K k k' → K (desk.note place event k) (desk'.note place event k')

structure Record.Alike (K : κ → κ' → Prop) (record : Record κ) (record' : Record κ') : Prop where
  kept : K record.kept record'.kept
  exits : record.exits = record'.exits

namespace Desk

variable {desk : Desk κ} {desk' : Desk κ'} {K : κ → κ' → Prop} {record : Record κ}
  {record' : Record κ'}

theorem Alike.report (h : desk.Alike desk' K) (hrecord : record.Alike K record') (place : Nat)
    (name : String) (happening : Happening) (time : Nat) :
    (desk.report place name happening time record).Alike K
      (desk'.report place name happening time record') :=
  ⟨h.note _ _ _ _ hrecord.kept, hrecord.exits⟩

theorem Alike.reportOutput (h : desk.Alike desk' K) (hrecord : record.Alike K record')
    (place : Nat) (name : String) (stream : OutputStream) (pid : Pid) (time : Nat)
    (content : Option String) :
    (desk.reportOutput place name stream pid time content record).Alike K
      (desk'.reportOutput place name stream pid time content record') := by
  cases content with
  | none => exact hrecord
  | some content => exact h.report hrecord ..

theorem Alike.takeOutput (h : desk.Alike desk' K) (hrecord : record.Alike K record')
    (place : Nat) (name : String) (stream : OutputStream) (time : Nat) (piece : String)
    (notes : Notes) :
    let r := desk.takeOutput place name stream time piece notes record
    let r' := desk'.takeOutput place name stream time piece notes record'
    r.1 = r'.1 ∧ r.2.Alike K r'.2 := by
  simp only [Desk.takeOutput_eq, ← h.format]
  exact ⟨trivial, h.reportOutput hrecord ..⟩

theorem Alike.takeExit (h : desk.Alike desk' K) (hrecord : record.Alike K record') (place : Nat)
    (name : String) (time : Nat) (status : ExitStatus) (notes : Notes) :
    (desk.takeExit place name time status notes record).Alike K
      (desk'.takeExit place name time status notes record') := by
  have hstdout := h.reportOutput hrecord place name .stdout notes.pid time notes.stdout.take.2
  have hstderr := h.reportOutput hstdout place name .stderr notes.pid time notes.stderr.take.2
  have hexited := h.report hstderr place name (.exited notes.pid status) time
  exact ⟨hexited.kept, congrArg (· ++ [(place, status)]) hexited.exits⟩

def Alike.likeness (h : desk.Alike desk' K) : Likeness (Record κ) (Record κ') where
  Calls c c' := ∃ place program notes,
    c = (desk.callbacks place program).remember notes ∧
        c' = (desk'.callbacks place program).remember notes ∨
      c = desk.callbacksOn place program notes ∧ c' = desk'.callbacksOn place program notes
  Shared := Record.Alike K
  onStarted := by
    rintro c c' ⟨place, program, notes, ⟨rfl, rfl⟩ | ⟨rfl, rfl⟩⟩
    · refine Or.inr ⟨_, _, rfl, rfl, ?_⟩
      intro occasion record record' hrecord
      refine .bind _ fun _ => .done ⟨⟨place, program, _, Or.inr ⟨rfl, rfl⟩⟩, ?_⟩
      exact h.report hrecord ..
    · exact Or.inl ⟨rfl, rfl⟩
  onOutput := by
    rintro c c' ⟨place, program, notes, hcalls⟩ stream
    have htaken {record : Record κ} {record' : Record κ'} (hrecord : record.Alike K record')
        (time : Nat) (text : String) :=
      h.takeOutput hrecord place program.name stream time text notes
    rcases hcalls with ⟨rfl, rfl⟩ | ⟨rfl, rfl⟩
    · cases stream
      all_goals
        refine Or.inr ⟨_, _, rfl, rfl, fun occasion text record record' hrecord => ?_⟩
        obtain ⟨hnotes, hrecords⟩ := htaken hrecord occasion.time text
        exact .done ⟨⟨place, program, _, Or.inl ⟨rfl, hnotes ▸ rfl⟩⟩, hrecords⟩
    · cases stream
      all_goals
        refine Or.inr ⟨_, _, rfl, rfl, fun occasion text record record' hrecord => ?_⟩
        obtain ⟨hnotes, hrecords⟩ := htaken hrecord occasion.time text
        exact .done ⟨⟨place, program, _, Or.inr ⟨rfl, hnotes ▸ rfl⟩⟩, hrecords⟩
  onExit := by
    rintro c c' ⟨place, program, notes, ⟨rfl, rfl⟩ | ⟨rfl, rfl⟩⟩
    all_goals
      exact Or.inr ⟨_, _, rfl, rfl, fun occasion status record record' hrecord =>
        h.takeExit hrecord ..⟩

/-- Callbacks at two desks that belong together, whatever happens to their programs, and tell the
same exits. -/
structure Serves (desk : Desk κ) (desk' : Desk κ') (like : Likeness (Record κ) (Record κ')) :
    Prop where
  callbacks : ∀ place program,
    like.Calls (desk.callbacks place program) (desk'.callbacks place program)
  spawnFailed : ∀ place name error time record record', like.Shared record record' →
    like.Shared (desk.report place name (.spawnFailed error) time record)
      (desk'.report place name (.spawnFailed error) time record')
  exits : ∀ record record', like.Shared record record' → record.exits = record'.exits

theorem Alike.serves (h : desk.Alike desk' K) : desk.Serves desk' h.likeness where
  callbacks place program := ⟨place, program, {}, Or.inl ⟨rfl, rfl⟩⟩
  spawnFailed _ _ _ _ _ _ hrecord := h.report hrecord ..
  exits _ _ hrecord := hrecord.exits

end Desk

/-! ### Carrying out a plan -/

section Serves

variable {desk : Desk κ} {desk' : Desk κ'} {like : Likeness (Record κ) (Record κ')}

theorem launch_serves (h : desk.Serves desk' like) (host : Host ω) (place : Nat)
    (program : Program) {supervisor : Supervisor (Record κ)}
    {supervisor' : Supervisor (Record κ')} (hsupervisor : like.Supervisors supervisor supervisor')
    {record : Record κ} {record' : Record κ'} (hrecord : like.Shared record record') (w : ω) :
    let r := launch host program (desk.callbacks place program) supervisor record w
    let r' := launch host program (desk'.callbacks place program) supervisor' record' w
    r.1 = r'.1 ∧ like.States r.2 r'.2 := by
  have hcalls := h.callbacks place program
  simp only [launch]
  split
  · exact Likeness.launch hsupervisor hrecord hcalls host ..
  · exact Likeness.launch hsupervisor hrecord hcalls host ..

theorem launchAll_serves (h : desk.Serves desk' like) (host : Host ω) (place : Nat)
    (programs : List Program) {supervisor : Supervisor (Record κ)}
    {supervisor' : Supervisor (Record κ')} (hsupervisor : like.Supervisors supervisor supervisor')
    {record : Record κ} {record' : Record κ'} (hrecord : like.Shared record record') (w : ω) :
    let r := launchAll host desk place programs supervisor record w
    let r' := launchAll host desk' place programs supervisor' record' w
    r.1 = r'.1 ∧ like.States r.2 r'.2 := by
  induction programs generalizing place supervisor supervisor' record record' w with
  | nil => exact ⟨rfl, hsupervisor, hrecord, rfl⟩
  | cons program rest ih =>
    obtain ⟨hresult, hstates⟩ := launch_serves h host place program hsupervisor hrecord w
    simp only [launchAll]
    generalize launch host program (desk.callbacks place program) supervisor record w = r
      at hresult hstates ⊢
    generalize launch host program (desk'.callbacks place program) supervisor' record' w = r'
      at hresult hstates ⊢
    obtain ⟨result, supervisor, record, w⟩ := r
    obtain ⟨result', supervisor', record', w'⟩ := r'
    obtain rfl : result = result' := hresult
    obtain ⟨hsupervisor, hrecord, rfl⟩ := hstates
    cases result with
    | ok pid =>
      obtain ⟨hfailures, hstates⟩ := ih (place + 1) hsupervisor hrecord w
      exact ⟨congrArg (none :: ·) hfailures, hstates⟩
    | error cause =>
      have hreported := h.spawnFailed place program.name cause.message (host.wallClock w) _ _
        hrecord
      obtain ⟨hfailures, hstates⟩ := ih (place + 1) hsupervisor hreported w
      exact ⟨congrArg (some cause :: ·) hfailures, hstates⟩

/-- **Two desks whose callbacks belong together see the same run**, and what they keep in the end
belongs together. -/
theorem carryOut_serves (h : desk.Serves desk' like) (host : Host ω) (fuel : Nat) (plan : Plan)
    {k : κ} {k' : κ'} (hstart : like.Shared { kept := k } { kept := k' }) (w : ω) :
    let r := carryOut host fuel plan desk k w
    let r' := carryOut host fuel plan desk' k' w
    r.1 = r'.1 ∧ r.2.2 = r'.2.2 ∧
      ∃ record record', like.Shared record record' ∧ r.2.1 = record.kept ∧
        r'.2.1 = record'.kept := by
  have hsummary {failures : List (Option Error)} {record : Record κ} {record' : Record κ'}
      (hrecord : like.Shared record record') (timedOut : Bool) :
      summary plan failures record timedOut = summary plan failures record' timedOut := by
    rw [summary, summary, h.exits _ _ hrecord]
  have hnew : like.Supervisors .new .new := .nil
  obtain ⟨hfailures, hstates⟩ := launchAll_serves h host 0 plan.programs hnew hstart w
  simp only [carryOut]
  generalize launchAll host desk 0 plan.programs .new { kept := k } w = r at hfailures hstates ⊢
  generalize launchAll host desk' 0 plan.programs .new { kept := k' } w = r' at hfailures hstates ⊢
  obtain ⟨failures, supervisor, record, w⟩ := r
  obtain ⟨failures', supervisor', record', w'⟩ := r'
  obtain rfl : failures = failures' := hfailures
  obtain ⟨hsupervisor, hrecord, rfl⟩ := hstates
  obtain ⟨hfinished, hstates⟩ := Likeness.wait hsupervisor hrecord host fuel
    (plan.pollingIntervalMs * 1000) (plan.maxWaitMs.map (· * 1000)) w
  dsimp only at hfinished hstates ⊢
  generalize supervisor.wait host fuel _ _ record w = r at hfinished hstates ⊢
  generalize supervisor'.wait host fuel _ _ record' w = r' at hfinished hstates ⊢
  obtain ⟨finished, supervisor, record, w⟩ := r
  obtain ⟨finished', supervisor', record', w'⟩ := r'
  obtain rfl : finished = finished' := hfinished
  obtain ⟨hsupervisor, hrecord, rfl⟩ := hstates
  cases finished with
  | none => exact ⟨rfl, rfl, _, _, hrecord, rfl, rfl⟩
  | some finished =>
    cases finished with
    | true => exact ⟨congrArg some (hsummary hrecord false), rfl, _, _, hrecord, rfl, rfl⟩
    | false =>
      dsimp only
      split
      · have hkilled : supervisor'.signalAll host .kill w = supervisor.signalAll host .kill w :=
          (Likeness.signalEach hsupervisor host .kill w).symm
        rw [hkilled]
        obtain ⟨hfinished, hstates⟩ := Likeness.wait hsupervisor hrecord host fuel
          (plan.pollingIntervalMs * 1000) none (supervisor.signalAll host .kill w)
        generalize supervisor.wait host fuel _ _ record _ = r at hfinished hstates ⊢
        generalize supervisor'.wait host fuel _ _ record' _ = r' at hfinished hstates ⊢
        obtain ⟨finished, supervisor, record, w⟩ := r
        obtain ⟨finished', supervisor', record', w'⟩ := r'
        obtain rfl : finished = finished' := hfinished
        obtain ⟨-, hrecord, rfl⟩ := hstates
        cases finished with
        | none => exact ⟨rfl, rfl, _, _, hrecord, rfl, rfl⟩
        | some finished =>
          exact ⟨congrArg some (hsummary hrecord true), rfl, _, _, hrecord, rfl, rfl⟩
      · exact ⟨congrArg some (hsummary hrecord true), Likeness.release hsupervisor host w, _, _,
          hrecord, rfl, rfl⟩

end Serves

variable {desk : Desk κ} {desk' : Desk κ'} {K : κ → κ' → Prop}

/-- **Two desks of one format see the same run.** -/
theorem carryOut_alike (h : desk.Alike desk' K) (host : Host ω) (fuel : Nat) (plan : Plan) {k : κ}
    {k' : κ'} (hk : K k k') (w : ω) :
    let r := carryOut host fuel plan desk k w
    let r' := carryOut host fuel plan desk' k' w
    r.1 = r'.1 ∧ K r.2.1 r'.2.1 ∧ r.2.2 = r'.2.2 := by
  have hstart : Record.Alike K { kept := k } { kept := k' } := ⟨hk, rfl⟩
  obtain ⟨hsummary, hmachine, record, record', hrecord, hkept, hkept'⟩ :=
    carryOut_serves h.serves host fuel plan hstart w
  exact ⟨hsummary, hkept ▸ hkept' ▸ hrecord.kept, hmachine⟩

/-! ### The ledger -/

/-- Events, oldest first, each with the place of its program. -/
abbrev Ledger := List (Nat × Event)

def Desk.ledger (format : Format) : Desk Ledger where
  format
  note place event ledger := ledger ++ [(place, event)]

def ledgerOf (host : Host ω) (fuel : Nat) (plan : Plan) (format : Format) (w : ω) : Ledger :=
  (carryOut host fuel plan (.ledger format) [] w).2.1

def Desk.noteAll (desk : Desk κ) (ledger : Ledger) (kept : κ) : κ :=
  ledger.foldl (fun k entry => desk.note entry.1 entry.2 k) kept

/-- **A desk takes the events of the ledger, in their order**, and has no part in the rest of the
run. -/
theorem carryOut_notes (host : Host ω) (fuel : Nat) (plan : Plan) (desk : Desk κ) (kept : κ)
    (w : ω) :
    carryOut host fuel plan desk kept w =
      let r := carryOut host fuel plan (.ledger desk.format) [] w
      (r.1, desk.noteAll r.2.1 kept, r.2.2) := by
  have halike : desk.Alike (.ledger desk.format)
      (fun k ledger => k = desk.noteAll ledger kept) := by
    refine ⟨rfl, ?_⟩
    rintro place event _ ledger rfl
    simp only [Desk.noteAll, Desk.ledger, List.foldl_append]
    rfl
  have hstart : kept = desk.noteAll [] kept := rfl
  obtain ⟨hsummary, hkept, hmachine⟩ := carryOut_alike halike host fuel plan hstart w
  exact Prod.ext hsummary (Prod.ext hkept hmachine)

def Reporter.reportAll (reporter : Reporter κ) (ledger : Ledger) (sink : κ) : κ :=
  ledger.foldl (fun k entry => reporter.sink.report reporter.format entry.2 k) sink

/-- A reporter reports the events of the ledger, in their order. -/
theorem run_reports (host : Host ω) (fuel : Nat) (plan : Plan) (reporter : Reporter κ) (sink : κ)
    (w : ω) :
    run host fuel plan reporter sink w =
      let r := carryOut host fuel plan (.ledger reporter.format) [] w
      (r.1, reporter.reportAll r.2.1 sink, r.2.2) :=
  carryOut_notes host fuel plan reporter.desk sink w

/-! ### Machines that answer alike -/

section Machines

variable {ω' : Type} {host : Host ω} {host' : Host ω'} {f : ω → ω'}

theorem launch_hom (h : Host.Hom host host' f) (program : Program)
    (callbacks : Callbacks (Record κ)) (supervisor : Supervisor (Record κ)) (record : Record κ)
    (w : ω) :
    launch host' program callbacks supervisor record (f w) =
      (launch host program callbacks supervisor record w).map id (.map id (.map id f)) := by
  rw [launch, launch]
  split
  · exact Supervisor.launch_hom h callbacks.carried_id ..
  · exact Supervisor.launch_hom h callbacks.carried_id ..

theorem launchAll_hom (h : Host.Hom host host' f) (desk : Desk κ) (place : Nat)
    (programs : List Program) (supervisor : Supervisor (Record κ)) (record : Record κ) (w : ω) :
    launchAll host' desk place programs supervisor record (f w) =
      (launchAll host desk place programs supervisor record w).map id (.map id (.map id f)) := by
  induction programs generalizing place supervisor record w with
  | nil => rfl
  | cons program rest ih =>
    rw [launchAll, launchAll, launch_hom h]
    generalize launch host program (desk.callbacks place program) supervisor record w = r
    obtain ⟨cause | pid, supervisor, record, w⟩ := r
    · simp only [Prod.map_apply, id, h.wallClock, ih]
      rfl
    · simp only [Prod.map_apply, id, ih]
      rfl

/-- To carry out a plan is carried over. -/
theorem carryOut_hom (h : Host.Hom host host' f) (fuel : Nat) (plan : Plan) (desk : Desk κ)
    (kept : κ) (w : ω) :
    carryOut host' fuel plan desk kept (f w) =
      (carryOut host fuel plan desk kept w).map id (.map id f) := by
  simp only [carryOut, launchAll_hom h]
  generalize launchAll host desk 0 plan.programs .new { kept } w = r
  obtain ⟨failures, supervisor, record, w⟩ := r
  simp only [Prod.map_apply, id, Supervisor.wait_hom h]
  generalize supervisor.wait host fuel _ _ record w = r
  obtain ⟨_ | _ | _, supervisor, record, w⟩ := r
  · rfl
  · simp only [Prod.map_apply, id]
    split
    · rw [Supervisor.signalAll_hom h, Supervisor.wait_hom h]
      generalize supervisor.wait host fuel _ none record _ = r
      obtain ⟨_ | _, supervisor, record, w⟩ := r <;> rfl
    · rw [Supervisor.release_hom h]
      rfl
  · rfl

/-- To keep a log changes nothing about a run. -/
theorem run_logged (host : Host ω) (fuel : Nat) (plan : Plan) (reporter : Reporter κ) (sink : κ)
    (w : ω × Log) :
    run host fuel plan reporter sink w.1 =
      (run host.logged fuel plan reporter sink w).map id (.map id Prod.fst) :=
  carryOut_hom host.forget ..

end Machines

end Chaperone.Supervise
