import Chaperone.Proofs.Supervise.Telling
import Chaperone.Proofs.Supervisor.Hom
import Chaperone.Proofs.Supervisor.Signals

/-!
# The course of one program

From its launch on, a program adds to the ledger of a run what `Tells` says, and the calls that are
made for it are those that its events tell of.  A program is `Playing` as long as its exit has not
been seen; then all that is left of it is its `Course`.

* `Playing.launched`: a program that was launched is playing.
* `Playing.poll`: a look at it goes on with its course, or ends it.

What is done with other programs in between has no part in this: neither the events nor the calls
of a program depend on those of others (`Aside`).
-/

namespace Chaperone

open Text.Utf8

variable {ω : Type}

namespace Program

def executable (program : Program) : String :=
  if program.shell then Chaperone.shell else program.command

def arguments (program : Program) : List String :=
  if program.shell then shellArguments program.command else program.args

/-- The calls of a child begin with its start, and it was started for this program. -/
def Starts (program : Program) (host : Host ω) (child : Child) (own : Log) : Prop :=
  ∃ (w : ω) (w' : ω × Log), spawn host.logged program.executable program.arguments program.options
    (w, []) = (.ok child, w') ∧ w'.2 <+: own

/-- The program could not be started, for this reason, and this is what was tried. -/
def Refused (program : Program) (host : Host ω) (cause : SpawnError) (own : Log) : Prop :=
  ∃ (w : ω) (w' : ω × Log), spawn host.logged program.executable program.arguments program.options
    (w, []) = (.error cause, w') ∧ w'.2 = own

theorem Starts.append {program : Program} {host : Host ω} {child : Child} {own : Log}
    (h : program.Starts host child own) (calls : Log) :
    program.Starts host child (own ++ calls) := by
  obtain ⟨w, w', hspawn, hprefix⟩ := h
  exact ⟨w, w', hspawn, hprefix.trans (List.prefix_append own calls)⟩

theorem Starts.apart {program : Program} {host : Host ω} {child : Child} {own : Log}
    (h : program.Starts host child own) : Apart child.pipe := by
  obtain ⟨w, w', hspawn, -⟩ := h
  exact apart_of_spawn hspawn

end Program

/-! ### Calls that were made before -/

theorem spawn_after (host : Host ω) (executable : String) (args : List String)
    (options : LaunchOptions) (w : ω) (log : Log) :
    spawn host.logged executable args options (w, log) =
      let r := spawn host.logged executable args options (w, [])
      (r.1, r.2.1, log ++ r.2.2) := by
  have h := spawn_hom (host.before log) executable args options (w, [])
  rwa [Log.before, List.append_nil] at h

namespace Entry

variable {σ : Type} (host : Host ω)

theorem launched_after (child : Child) (callbacks : Callbacks σ) (kill : Bool) (s : σ)
    (w : ω × Log) (log : Log) :
    launched host.logged child callbacks kill s (w.1, log ++ w.2) =
      let m := launched host.logged child callbacks kill s w
      (m.1, m.2.1, m.2.2.1, log ++ m.2.2.2) :=
  launched_hom (host.before log) callbacks.carried_id child kill s w

theorem poll_after (entry : Entry σ) (s : σ) (w : ω) (log : Log) :
    entry.poll host.logged s (w, log) =
      let m := entry.poll host.logged s (w, [])
      (m.1, m.2.1, m.2.2.1, log ++ m.2.2.2) := by
  have h := poll_hom (host.before log) entry.callbacks.carried_id s (w, [])
  rwa [id, Log.before, List.append_nil] at h

end Entry

namespace Supervise

theorem launch_eq {κ : Type} (host : Host ω) (program : Program) (callbacks : Callbacks (Record κ))
    (supervisor : Supervisor (Record κ)) (record : Record κ) (w : ω) :
    launch host program callbacks supervisor record w =
      supervisor.launch host program.executable program.arguments program.options callbacks false
        record w := by
  rw [launch, Program.executable, Program.arguments]
  split <;> rfl

/-! ### What the ledger notes -/

namespace Desk

variable (format : Format) (place : Nat) (name : String) (time : Nat) (record : Record Ledger)

theorem report_ledger (happening : Happening) :
    (ledger format).report place name happening time record =
      record.noted place name time [happening] := rfl

theorem reportOutput_ledger (stream : OutputStream) (pid : Pid) (content : Option String) :
    (ledger format).reportOutput place name stream pid time content record =
      record.noted place name time
        ((content.map (stream, ·)).toList.map fun p => .output pid p.1 p.2) := by
  cases content with
  | none => simp [reportOutput, Record.noted]
  | some content => rfl

theorem takeExit_ledger (status : ExitStatus) (notes : Notes) :
    (ledger format).takeExit place name time status notes record =
      let after := record.noted place name time
        (notes.last.map (fun p => .output notes.pid p.1 p.2) ++ [.exited notes.pid status])
      { after with exits := after.exits ++ [(place, status)] } := by
  simp only [takeExit, reportOutput_ledger, report_ledger, Record.noted_append, Notes.last,
    List.map_append]

end Desk

structure Aside (place : Nat) (before after : Record Ledger) : Prop where
  events : ∀ other ≠ place, after.kept.own other = before.kept.own other
  exits : ∀ other ≠ place, after.exits.lookup other = before.exits.lookup other

namespace Aside

variable {place : Nat} {before middle after : Record Ledger}

theorem refl (place : Nat) (record : Record Ledger) : Aside place record record :=
  ⟨fun _ _ => rfl, fun _ _ => rfl⟩

theorem trans (h : Aside place before middle) (g : Aside place middle after) :
    Aside place before after :=
  ⟨fun other hne => (g.events other hne).trans (h.events other hne),
    fun other hne => (g.exits other hne).trans (h.exits other hne)⟩

/-- Events of the program are noted. -/
theorem noted (record : Record Ledger) (place : Nat) (name : String) (time : Nat)
    (happenings : List Happening) :
    Aside place record (record.noted place name time happenings) :=
  ⟨fun _ hne => record.own_noted_of_ne place name time happenings hne, fun _ _ => rfl⟩

/-- The exit of the program is noted. -/
theorem exited (record : Record Ledger) (place : Nat) (status : ExitStatus) :
    Aside place record { record with exits := record.exits ++ [(place, status)] } := by
  refine ⟨fun _ _ => rfl, fun other hne => ?_⟩
  have hother : (other == place) = false := beq_false_of_ne hne
  simp [List.lookup_append, List.lookup_cons, hother]

end Aside

/-! ### The callbacks of a program -/

theorem Tells.takeOutput {program : Program} {pid : Pid} {format : Format} {pieces : List Piece}
    {place : Nat} {record : Record Ledger}
    (h : Tells program pid (Notes.tell format pid pieces).2 none (record.kept.own place))
    (stream : OutputStream) (time : Nat) (text : String) :
    let r := (Desk.ledger format).takeOutput place program.name stream time text
      (Notes.tell format pid pieces).1 record
    r.1 = (Notes.tell format pid (pieces ++ [(stream, text)])).1 ∧
      Tells program pid (Notes.tell format pid (pieces ++ [(stream, text)])).2 none
        (r.2.kept.own place) ∧
      r.2.exits = record.exits ∧ Aside place record r.2 := by
  rw [Desk.takeOutput_eq, Desk.reportOutput_ledger, Notes.pid_tell, Notes.tell_concat]
  refine ⟨rfl, ?_, rfl, .noted ..⟩
  rw [Record.own_noted]
  have hafter := h.append
    (((Notes.tell format pid pieces).1.push format stream text).2.map (stream, ·)).toList none
    (Text.timestamp time)
  rwa [Option.map_none, Option.toList_none, List.append_nil] at hafter

/-- The account of the pieces that the callbacks of a program keep, since the record `before`. -/
def chronicle (format : Format) (place : Nat) (program : Program) (pid : Pid)
    (before : Record Ledger) : Listener (Record Ledger) where
  Hears c record pieces :=
    c = (Desk.ledger format).callbacksOn place program (Notes.tell format pid pieces).1 ∧
      Tells program pid (Notes.tell format pid pieces).2 none (record.kept.own place) ∧
      record.exits = before.exits ∧ Aside place before record
  hears_output := by
    rintro _ record pieces ⟨rfl, htells, hexits, haside⟩ stream
    have htaken (time : Nat) (text : String) := htells.takeOutput stream time text
    cases stream
    all_goals
      refine ⟨_, rfl, ?_⟩
      rintro ω host occasion text child w _ rfl
      obtain ⟨hnotes, htold, hsame, hbeside⟩ := htaken occasion.time text
      exact ⟨congrArg _ hnotes, htold, hsame.trans hexits, haside.trans hbeside⟩

/-- The first callback notes the start and remembers the number of the child. -/
theorem launched_ledger (host : Host ω) (format : Format) (place : Nat) (program : Program)
    (child : Child) (record : Record Ledger) (w : ω)
    {m : Entry (Record Ledger) × Record Ledger × ω}
    (hm : Entry.launched host child ((Desk.ledger format).callbacks place program) false record w =
      m) :
    m.1.callbacks = (Desk.ledger format).callbacksOn place program { pid := child.pid } ∧
      m.2.1 = (Desk.ledger format).report place program.name
        (.started child.pid program.command program.args) (host.wallClock w) record := by
  subst hm
  let noted := (Desk.ledger format).report place program.name
    (.started child.pid program.command program.args) (host.wallClock w) record
  have hrun : (((Script.feed (program.input.getD "")).bind fun () =>
      .done (({ pid := child.pid } : Notes), noted)).run host child w).1 =
        ({ pid := child.pid }, noted) := by
    rw [Script.run_bind]
    rfl
  refine ⟨?_, congrArg Prod.snd hrun⟩
  exact congrArg (fun r : Notes × Record Ledger =>
    (Desk.ledger format).callbacksOn place program r.1) hrun

/-- The last callback notes the rest of the output and the exit. -/
theorem conclude_ledger {format : Format} {place : Nat} {program : Program} {pid : Pid}
    {before record : Record Ledger} {pieces : List Piece} {entry : Entry (Record Ledger)}
    (h : (chronicle format place program pid before).Hears entry.callbacks record pieces)
    (hexit : before.exits.lookup place = none) (host : Host ω) (status : ExitStatus) (w : ω)
    {m : Entry (Record Ledger) × Record Ledger × ω}
    (hm : entry.conclude host status record w = m) :
    m.1.finished = true ∧ Aside place before m.2.1 ∧ m.2.1.exits.lookup place = some status ∧
      Tells program pid (Notes.told format pid pieces) (some status) (m.2.1.kept.own place) := by
  obtain ⟨hcallbacks, htells, hexits, haside⟩ := h
  have hrecord : m.2.1 = (Desk.ledger format).takeExit place program.name (host.wallClock w) status
      (Notes.tell format pid pieces).1 record := by
    rw [← hm]
    simp only [Entry.conclude, hcallbacks]
    rfl
  rw [Desk.takeExit_ledger, Notes.pid_tell] at hrecord
  refine ⟨?_, ?_, ?_, ?_⟩
  · rw [← hm]
    rfl
  · rw [hrecord]
    exact haside.trans (.trans (.noted ..) (.exited _ place status))
  · have hnone : record.exits.lookup place = none := by rw [hexits, hexit]
    rw [hrecord]
    simp [Record.noted, List.lookup_append, hnone]
  · rw [hrecord, Record.own_noted]
    exact htells.append _ (some status) _

/-! ### The course of a program -/

/-- The course of a program that was started.  Its events tell of its output and of the exit that
an answer has reported.  Until then some output may not have been told of; with the exit all of it
has been, and in text form the lines that are told are the lines of all output. -/
def Course (host : Host ω) (format : Format) (program : Program) (own : Log)
    (exit : Option ExitStatus) (events : List Event) : Prop :=
  ∃ (child last : Child) (contents : List Piece), program.Starts host child own ∧
    Tracks last own ∧ last.status = exit ∧
    Tells program child.pid contents exit events ∧
    (exit.isSome → ∀ stream,
      heard stream contents = lossy (received (child.pipe stream) own) ∧
        (format = .text → linesOf stream contents =
          Text.lines (lossy (received (child.pipe stream) own))))

structure Playing (host : Host ω) (format : Format) (place : Nat) (program : Program) (own : Log)
    (record : Record Ledger) (entry : Entry (Record Ledger)) : Prop where
  exits : record.exits.lookup place = none
  status : entry.child.status = none
  finished : entry.finished = false
  tracks : Tracks entry.child own
  unread : ∀ stream, entry.child.residue stream = []
  account : ∃ (child : Child) (pieces : List Piece), program.Starts host child own ∧
    Stands (chronicle format place program child.pid record) child.pipe entry record own pieces

def Fares (host : Host ω) (format : Format) (place : Nat) (program : Program) (own : Log)
    (record : Record Ledger) (entry : Entry (Record Ledger)) : Prop :=
  Playing host format place program own record entry ∨
    entry.finished = true ∧ ∃ status, record.exits.lookup place = some status ∧
      Course host format program own (some status) (record.kept.own place)

namespace Playing

variable {host : Host ω} {format : Format} {place : Nat} {program : Program} {own : Log}
  {record record' : Record Ledger} {entry : Entry (Record Ledger)}

/-- So far the events tell of no exit. -/
theorem course (h : Playing host format place program own record entry) :
    Course host format program own none (record.kept.own place) := by
  obtain ⟨child, pieces, hstarts, ⟨-, htells, -⟩, -⟩ := h.account
  exact ⟨child, entry.child, _, hstarts, h.tracks, h.status, htells, nofun⟩

/-- What is noted of other programs changes nothing. -/
theorem congr (h : Playing host format place program own record entry)
    (hevents : record'.kept.own place = record.kept.own place)
    (hexits : record'.exits.lookup place = record.exits.lookup place) :
    Playing host format place program own record' entry := by
  obtain ⟨child, pieces, hstarts, ⟨hcallbacks, htells, -⟩, haccount⟩ := h.account
  refine ⟨hexits.trans h.exits, h.status, h.finished, h.tracks, h.unread, child, pieces, hstarts,
    ⟨hcallbacks, ?_, rfl, .refl _ _⟩, haccount⟩
  rwa [hevents]

/-- A program that was launched is playing. -/
theorem launched {child : Child} {w w₁ : ω × Log}
    (hspawn : spawn host.logged program.executable program.arguments program.options w =
      (.ok child, w₁)) (hevents : record.kept.own place = [])
    (hexits : record.exits.lookup place = none)
    {m : Entry (Record Ledger) × Record Ledger × ω × Log}
    (hm : Entry.launched host.logged child ((Desk.ledger format).callbacks place program) false
      record w₁ = m) :
    ∃ calls, m.2.2.2 = w.2 ++ calls ∧ Aside place record m.2.1 ∧
      Playing host format place program calls m.2.1 m.1 := by
  obtain ⟨v, log⟩ := w
  rw [spawn_after] at hspawn
  generalize hfirst : spawn host.logged program.executable program.arguments program.options
    (v, []) = r at hspawn
  obtain ⟨result, w₀⟩ := r
  obtain ⟨rfl, rfl⟩ := Prod.mk.inj hspawn
  rw [Entry.launched_after] at hm
  subst hm
  have hminds := Entry.minds_launched host record w₀ child
    ((Desk.ledger format).callbacks place program) false
  generalize hm : Entry.launched host.logged child ((Desk.ledger format).callbacks place program)
    false record w₀ = m at hminds
  obtain ⟨hchild, htells, hfinished, hdecoder⟩ :=
    Entry.launched_spec host child _ false record w₀ hm
  obtain ⟨hcallbacks, hrecord⟩ :=
    launched_ledger host.logged format place program child record w₀ hm
  obtain ⟨-, request, started, hlog, htracks⟩ := Tracks.spawn hfirst
  obtain ⟨-, -, calls, hcalls, hgoes⟩ := hminds
  refine ⟨m.2.2.2, rfl, ?_, ?_, ?_, hfinished, ?_, ?_, child, [], ⟨v, w₀, hfirst, ?_⟩,
    ⟨hcallbacks, ?_, rfl, .refl _ _⟩, fun _ => [], (Flow.spawn hfirst).tells hchild htells, ?_⟩
  · rw [hrecord, Desk.report_ledger]
    exact .noted ..
  · rw [hrecord]
    exact hexits
  · exact (Child.status_of_withoutInput hchild).trans (status_of_spawn hfirst)
  · have hown := hgoes _ htracks
    rwa [← List.nil_append [Call.start _ _], ← hlog, ← hcalls] at hown
  · intro stream
    rw [Child.residue_of_withoutInput hchild, residue_of_spawn hfirst]
  · rw [hcalls]
    exact List.prefix_append ..
  · rw [hrecord, Desk.report_ledger, Record.own_noted, hevents]
    exact .start ..
  · intro stream
    rw [hdecoder]
    exact Decoder.hasRead_new

/-- A signal goes on with the course of a program. -/
theorem signal (h : Playing host format place program own record entry) (signal : Signal)
    (w : ω × Log) :
    ∃ calls, (entry.child.signal host.logged signal w).2.2 = w.2 ++ calls ∧
      Playing host format place program (own ++ calls) record entry := by
  obtain ⟨hexits, hstatus, hfinished, htracks, hunread, child, pieces, hstarts, hstands⟩ := h
  obtain ⟨-, -, calls, hcalls, hgoes⟩ := entry.child.minds_signal host w signal
  obtain ⟨told, htold, htells⟩ := entry.child.tells_signal host w signal
  obtain rfl := List.append_cancel_left (hcalls.symm.trans htold)
  have honly : Only Call.Tells (w.1, own) (w.1, own ++ calls) := ⟨calls, rfl, htells⟩
  exact ⟨calls, hcalls, hexits, hstatus, hfinished, hgoes own htracks, hunread, child, pieces,
    hstarts.append calls, Stands.tells (w := (w.1, own)) hstands rfl honly⟩

/-- **A look goes on with the course of a program, or ends it.** -/
theorem poll (h : Playing host format place program own record entry) (w : ω × Log)
    {m : Entry (Record Ledger) × Record Ledger × ω × Log}
    (hm : entry.poll host.logged record w = m) :
    ∃ calls, m.2.2.2 = w.2 ++ calls ∧ Aside place record m.2.1 ∧
      Fares host format place program (own ++ calls) m.2.1 m.1 := by
  obtain ⟨v, log⟩ := w
  obtain ⟨hexits, hstatus, hfinished, htracks, -, child, pieces, hstarts, hstands⟩ := h
  rw [Entry.poll_after] at hm
  subst hm
  -- The look as it is when only the calls of the program itself were made before.
  have hown := Entry.poll_after host entry record v own
  have hminds := Entry.heeds_poll host entry record (v, own)
  generalize hlook : entry.poll host.logged record (v, own) = look at hown hminds
  generalize entry.poll host.logged record (v, []) = m at hown ⊢
  subst hown
  obtain ⟨-, -, calls, hcalls, hgoes⟩ := hminds
  obtain rfl := List.append_cancel_left hcalls
  have htracked := hgoes own htracks
  refine ⟨m.2.2.2, rfl, ?_⟩
  rcases Stands.poll (w := (v, own)) hstands hstarts.apart host hstatus hlook with
    ⟨-, -, hnone, hunread, hleft, more, ⟨hcallbacks, htells, hsame, haside⟩, haccount⟩ |
    ⟨status, last, all, hreported, hconclude, hhears, hheard⟩
  · have hlookup : m.2.1.exits.lookup place = none := (congrArg _ hsame).trans hexits
    exact ⟨haside, Or.inl ⟨hlookup, hnone, hleft.trans hfinished, htracked, hunread, child,
      pieces ++ more, hstarts.append _, ⟨hcallbacks, htells, rfl, .refl _ _⟩, haccount⟩⟩
  · obtain ⟨hended, haside, hlookup, htells⟩ :=
      conclude_ledger hhears hexits host.logged status last.2.2 hconclude.symm
    have hseen : m.1.child.status = some status := by
      have hall : reported (own ++ m.2.2.2) = [status] := by
        rw [hreported, htracks.reported, hstatus]
        rfl
      rw [htracked.reported] at hall
      exact Option.toList_eq_singleton_iff.mp hall
    refine ⟨haside, Or.inr ⟨hended, status, hlookup, child, m.1.child, _, hstarts.append _,
      htracked, hseen, htells, fun _ stream => ⟨?_, ?_⟩⟩⟩
    · rw [Notes.heard_told, hheard]
    · rintro rfl
      rw [Notes.linesOf_told, hheard]

end Playing

/-- What is noted of other programs changes nothing. -/
theorem Fares.congr {host : Host ω} {format : Format} {place : Nat} {program : Program} {own : Log}
    {record record' : Record Ledger} {entry : Entry (Record Ledger)}
    (h : Fares host format place program own record entry)
    (hevents : record'.kept.own place = record.kept.own place)
    (hexits : record'.exits.lookup place = record.exits.lookup place) :
    Fares host format place program own record' entry := by
  rcases h with hplaying | ⟨hfinished, status, hstatus, hcourse⟩
  · exact Or.inl (hplaying.congr hevents hexits)
  · exact Or.inr ⟨hfinished, status, hexits.trans hstatus, hevents ▸ hcourse⟩

end Supervise

end Chaperone
