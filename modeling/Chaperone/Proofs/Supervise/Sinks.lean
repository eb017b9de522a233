import Chaperone.Proofs.Supervise.Ledger

/-!
# Runs that differ in their reports

The callbacks of a run do two things: they take events to the desk, and they feed the programs and
record exits.  The second does not depend on the first.  Neither the format, in which unfinished
lines are kept back or not, nor anything that comes of the events at the desk shows in what is asked
of the programs (`carryOut_indifferent`).

A sink that refuses a line is not given the other lines of the event, and is given all other events
(`Sink.Attempts`, `Reporter.exists_attempts`).

* `run_indifferent`: both, for whole runs.
-/

namespace Chaperone

/-! ### What is asked of a sink -/

inductive Sink.Attempt where
  | write (text : String) (done : Bool)
  | flush (done : Bool)
  deriving DecidableEq, Repr

namespace Sink

variable {κ : Type}

def attempted (sink : Sink κ) : Sink (κ × List Attempt) where
  write text := fun (k, attempts) =>
    let (done, k) := sink.write text k
    (done, k, attempts ++ [.write text done])
  flush := fun (k, attempts) =>
    let (done, k) := sink.flush k
    (done, k, attempts ++ [.flush done])

/-- The calls that are made for the lines of an event.  Each line is written at once.  A line that
is refused is the last of them; if none is, the sink is flushed. -/
inductive Attempts : List String → List Attempt → Prop
  | flush (done : Bool) : Attempts [] [.flush done]
  | refused (line : String) (rest : List String) :
      Attempts (line :: rest) [.write (line ++ "\n") false]
  | written (line : String) {rest : List String} {attempts : List Attempt} :
      Attempts rest attempts → Attempts (line :: rest) (.write (line ++ "\n") true :: attempts)

theorem write_attempted (sink : Sink κ) (text : String) (k : κ) (before : List Attempt) :
    sink.attempted.write text (k, before) =
      ((sink.write text k).1, (sink.write text k).2,
        before ++ [.write text (sink.write text k).1]) := rfl

theorem report_attempted (sink : Sink κ) (format : Format) (event : Event) (k : κ)
    (before : List Attempt) :
    ∃ attempts, sink.attempted.report format event (k, before) =
        (sink.report format event k, before ++ attempts) ∧
      Attempts (event.lines format) attempts := by
  simp only [report]
  generalize event.lines format = lines
  induction lines generalizing k before with
  | nil => exact ⟨[.flush (sink.flush k).1], rfl, .flush _⟩
  | cons line rest ih =>
    simp only [writeLines, write_attempted]
    generalize sink.write (line ++ "\n") k = r
    obtain ⟨_ | _, k'⟩ := r
    · exact ⟨[.write (line ++ "\n") false], rfl, .refused line rest⟩
    · obtain ⟨attempts, hreport, hattempts⟩ := ih k' (before ++ [.write (line ++ "\n") true])
      refine ⟨.write (line ++ "\n") true :: attempts, ?_, .written line hattempts⟩
      rw [List.append_assoc] at hreport
      exact hreport

end Sink

namespace Supervise

variable {κ κ' ω : Type}

def Reporter.attempted (reporter : Reporter κ) : Reporter (κ × List Sink.Attempt) where
  sink := reporter.sink.attempted
  format := reporter.format

theorem Reporter.exists_attempts (reporter : Reporter κ) (ledger : Ledger) (k : κ)
    (before : List Sink.Attempt) :
    ∃ parts : List (List Sink.Attempt),
      reporter.attempted.reportAll ledger (k, before) =
          (reporter.reportAll ledger k, before ++ parts.flatten) ∧
        List.Forall₂ (fun entry => Sink.Attempts (entry.2.lines reporter.format)) ledger parts := by
  induction ledger generalizing k before with
  | nil => exact ⟨[], by rw [List.flatten_nil, List.append_nil]; rfl, .nil⟩
  | cons entry rest ih =>
    obtain ⟨attempts, hreport, hattempts⟩ :=
      reporter.sink.report_attempted reporter.format entry.2 k before
    obtain ⟨parts, hrest, hparts⟩ :=
      ih (reporter.sink.report reporter.format entry.2 k) (before ++ attempts)
    refine ⟨attempts :: parts, ?_, .cons hattempts hparts⟩
    rw [List.flatten_cons, ← List.append_assoc]
    exact (congrArg (reporter.attempted.reportAll rest) hreport).trans hrest

/-! ### Two desks of any kind -/

namespace Desk

section
variable (desk : Desk κ) (place : Nat) (name : String) (time : Nat) (notes : Notes)
  (record : Record κ)

theorem exits_report (happening : Happening) :
    (desk.report place name happening time record).exits = record.exits := rfl

theorem exits_reportOutput (stream : OutputStream) (pid : Pid) (content : Option String) :
    (desk.reportOutput place name stream pid time content record).exits = record.exits := by
  cases content <;> rfl

theorem exits_takeOutput (stream : OutputStream) (piece : String) :
    (desk.takeOutput place name stream time piece notes record).2.exits = record.exits := by
  rw [takeOutput_eq]
  exact desk.exits_reportOutput ..

/-- Whatever was kept back of the output, the exit is recorded. -/
theorem exits_takeExit (status : ExitStatus) :
    (desk.takeExit place name time status notes record).exits =
      record.exits ++ [(place, status)] := by
  simp only [takeExit, exits_report, exits_reportOutput]

end

section
variable {record : Record κ} {record' : Record κ'} (h : record.exits = record'.exits)
  (desk : Desk κ) (desk' : Desk κ') (place : Nat) (name : String) (time : Nat)
  (notes notes' : Notes)
include h

theorem takeOutput_indifferent (stream : OutputStream) (piece : String) :
    (desk.takeOutput place name stream time piece notes record).2.exits =
      (desk'.takeOutput place name stream time piece notes' record').2.exits := by
  rw [exits_takeOutput, exits_takeOutput, h]

theorem takeExit_indifferent (status : ExitStatus) :
    (desk.takeExit place name time status notes record).exits =
      (desk'.takeExit place name time status notes' record').exits := by
  rw [exits_takeExit, exits_takeExit, h]

end

/-- Callbacks of one program at two desks ask the same of the program, whatever they remember and
whatever the desks keep. -/
def indifferent (desk : Desk κ) (desk' : Desk κ') : Likeness (Record κ) (Record κ') where
  Calls c c' := ∃ place program notes notes',
    c = (desk.callbacks place program).remember notes ∧
        c' = (desk'.callbacks place program).remember notes' ∨
      c = desk.callbacksOn place program notes ∧ c' = desk'.callbacksOn place program notes'
  Shared record record' := record.exits = record'.exits
  onStarted := by
    rintro c c' ⟨place, program, notes, notes', ⟨rfl, rfl⟩ | ⟨rfl, rfl⟩⟩
    · refine Or.inr ⟨_, _, rfl, rfl, ?_⟩
      intro occasion record record' hrecord
      exact .bind _ fun _ => .done ⟨⟨place, program, _, _, Or.inr ⟨rfl, rfl⟩⟩, hrecord⟩
    · exact Or.inl ⟨rfl, rfl⟩
  onOutput := by
    rintro c c' ⟨place, program, notes, notes', ⟨rfl, rfl⟩ | ⟨rfl, rfl⟩⟩ stream
    · cases stream
      all_goals
        exact Or.inr ⟨_, _, rfl, rfl, fun occasion text record record' hrecord =>
          .done ⟨⟨place, program, _, _, Or.inl ⟨rfl, rfl⟩⟩, takeOutput_indifferent hrecord ..⟩⟩
    · cases stream
      all_goals
        exact Or.inr ⟨_, _, rfl, rfl, fun occasion text record record' hrecord =>
          .done ⟨⟨place, program, _, _, Or.inr ⟨rfl, rfl⟩⟩, takeOutput_indifferent hrecord ..⟩⟩
  onExit := by
    rintro c c' ⟨place, program, notes, notes', ⟨rfl, rfl⟩ | ⟨rfl, rfl⟩⟩
    all_goals
      exact Or.inr ⟨_, _, rfl, rfl, fun occasion status record record' hrecord =>
        takeExit_indifferent hrecord ..⟩

theorem serves_indifferent (desk : Desk κ) (desk' : Desk κ') :
    desk.Serves desk' (desk.indifferent desk') where
  callbacks place program := ⟨place, program, {}, {}, Or.inl ⟨rfl, rfl⟩⟩
  spawnFailed _ _ _ _ _ _ hrecord := hrecord
  exits _ _ hrecord := hrecord

end Desk

/-- The desk has no part in the summary of a run and in what is asked of the machine. -/
theorem carryOut_indifferent (host : Host ω) (fuel : Nat) (plan : Plan) (desk : Desk κ)
    (desk' : Desk κ') (kept : κ) (kept' : κ') (w : ω) :
    let r := carryOut host fuel plan desk kept w
    let r' := carryOut host fuel plan desk' kept' w
    r.1 = r'.1 ∧ r.2.2 = r'.2.2 := by
  have hstart : (desk.indifferent desk').Shared { kept } { kept := kept' } := rfl
  obtain ⟨hsummary, hmachine, -⟩ :=
    carryOut_serves (desk.serves_indifferent desk') host fuel plan hstart w
  exact ⟨hsummary, hmachine⟩

/-- **A run does not depend on its report.**

* Two reporters of whatever formats, whose sinks refuse whatever lines and fail to flush whenever
  they like, give one summary, and the same calls are made to the machine, with the same answers.
* So does any other desk, such as one that writes a line in parts.  Each is given all events of the
  ledger.
* For every event the sink is called, whatever it has refused before. -/
theorem run_indifferent (host : Host ω) (fuel : Nat) (plan : Plan) (reporter : Reporter κ)
    (reporter' : Reporter κ') (sink : κ) (sink' : κ') (w : ω) :
    let r := run host.logged fuel plan reporter sink (w, [])
    let r' := run host.logged fuel plan reporter' sink' (w, [])
    run host fuel plan reporter sink w = (r.1, r.2.1, r.2.2.1) ∧
      (r.1 = r'.1 ∧ r.2.2 = r'.2.2) ∧
      (∀ (κ'' : Type) (desk : Desk κ'') (kept : κ''),
        carryOut host.logged fuel plan desk kept (w, []) =
          (r.1, desk.noteAll (ledgerOf host.logged fuel plan desk.format (w, [])) kept, r.2.2)) ∧
      ∃ parts : List (List Sink.Attempt),
        run host.logged fuel plan reporter.attempted (sink, []) (w, []) =
            (r.1, (r.2.1, parts.flatten), r.2.2) ∧
          List.Forall₂ (fun entry => Sink.Attempts (entry.2.lines reporter.format))
            (ledgerOf host.logged fuel plan reporter.format (w, [])) parts := by
  intro r r'
  -- Both are what the machine was asked when only a ledger was kept.
  have hledger (format : Format) :=
    carryOut_indifferent host.logged fuel plan (.ledger format) reporter.desk [] sink (w, [])
  have hdesk {κ : Type} (desk : Desk κ) (kept : κ) :
      carryOut host.logged fuel plan desk kept (w, []) =
        (r.1, desk.noteAll (ledgerOf host.logged fuel plan desk.format (w, [])) kept, r.2.2) := by
    obtain ⟨hsummary, hmachine⟩ := hledger desk.format
    rw [carryOut_notes]
    exact Prod.ext hsummary (Prod.ext rfl hmachine)
  have hother := hdesk reporter'.desk sink'
  obtain ⟨parts, hparts, hattempts⟩ := reporter.exists_attempts
    (ledgerOf host.logged fuel plan reporter.format (w, [])) sink []
  refine ⟨run_logged host fuel plan reporter sink (w, []), ?_, fun _ => hdesk, parts, ?_,
    hattempts⟩
  · exact ⟨(congrArg (·.1) hother).symm, (congrArg (·.2.2) hother).symm⟩
  · have hkept : r.2.1 =
        reporter.reportAll (ledgerOf host.logged fuel plan reporter.format (w, [])) sink :=
      congrArg (·.2.1) (run_reports host.logged fuel plan reporter sink (w, []))
    rw [run_reports]
    exact Prod.ext (hledger _).1 (Prod.ext (hkept ▸ hparts) (hledger _).2)

end Supervise

end Chaperone
