import Chaperone.Proofs.Supervise.Ledger
import Chaperone.Proofs.Supervisor.Delivery
import Chaperone.Proofs.Text.Lines
import Mathlib.Data.List.Induction

/-!
# What is told of a program

The output of a program is handed over in pieces of text, of which the callbacks tell in their turn
(`Notes.tell`): in JSON form every piece as it is, in text form whole lines as soon as they are
there and the rest of the last lines before the exit (`Notes.last`).  Nothing is lost or told twice
(`heard_told`), and whatever the pieces were, the lines of what is told are the lines of the whole
text (`linesOf_told`).

`Tells` says of the events of a program that they tell this and nothing else: first that it was
started, then its output, then its exit if it has ended.
-/

namespace Chaperone

open Text

def Event.piece? (event : Event) : Option Piece :=
  match event.happening with
  | .output _ stream content => some (stream, content)
  | _ => none

namespace Supervise

/-! ### The events of one program -/

namespace Ledger

def own (ledger : Ledger) (place : Nat) : List Event :=
  ledger.filterMap fun (p, event) => if p = place then some event else none

end Ledger

def Record.noted (record : Record Ledger) (place : Nat) (name : String) (time : Nat)
    (happenings : List Happening) : Record Ledger :=
  let events := happenings.map fun happening => ⟨name, happening, Text.timestamp time⟩
  { record with kept := record.kept ++ events.map (place, ·) }

namespace Record

variable (record : Record Ledger) (place : Nat) (name : String) (time : Nat)
  (happenings : List Happening)

theorem own_noted : (record.noted place name time happenings).kept.own place =
    record.kept.own place ++
      happenings.map fun happening => ⟨name, happening, Text.timestamp time⟩ := by
  simp [noted, Ledger.own, List.filterMap_map]

theorem own_noted_of_ne {other : Nat} (h : other ≠ place) :
    (record.noted place name time happenings).kept.own other = record.kept.own other := by
  simp [noted, Ledger.own, List.filterMap_map, h.symm]

theorem noted_append (more : List Happening) :
    (record.noted place name time happenings).noted place name time more =
      record.noted place name time (happenings ++ more) := by
  simp [noted]

end Record

/-! ### From pieces to contents -/

namespace Notes

/-- What is remembered, and what was told, after one more piece. -/
def step (format : Format) (m : Notes × List Piece) (p : Piece) : Notes × List Piece :=
  let (notes, content) := m.1.push format p.1 p.2
  (notes, m.2 ++ (content.map (p.1, ·)).toList)

def tell (format : Format) (pid : Pid) (pieces : List Piece) : Notes × List Piece :=
  pieces.foldl (step format) ({ pid }, [])

/-- The unfinished lines, which are told before the exit. -/
def last (notes : Notes) : List Piece :=
  (notes.stdout.take.2.map (OutputStream.stdout, ·)).toList ++
    (notes.stderr.take.2.map (OutputStream.stderr, ·)).toList

def told (format : Format) (pid : Pid) (pieces : List Piece) : List Piece :=
  (tell format pid pieces).2 ++ (tell format pid pieces).1.last

@[simp] theorem tell_concat (format : Format) (pid : Pid) (pieces : List Piece) (p : Piece) :
    tell format pid (pieces ++ [p]) = step format (tell format pid pieces) p := by
  simp [tell]

theorem pid_push (format : Format) (stream : OutputStream) (text : String) (notes : Notes) :
    (notes.push format stream text).1.pid = notes.pid := by
  cases format <;> cases stream <;> rfl

@[simp] theorem pid_tell (format : Format) (pid : Pid) (pieces : List Piece) :
    (tell format pid pieces).1.pid = pid := by
  induction pieces using List.reverseRecOn with
  | nil => rfl
  | append_singleton pieces p ih =>
    rw [tell_concat]
    exact (pid_push ..).trans ih

/-! ### Nothing is lost -/

@[simp] theorem buffer_withBuffer (notes : Notes) (buffer : LineBuffer) (stream : OutputStream) :
    (notes.withBuffer buffer stream).buffer stream = buffer := by cases stream <;> rfl

theorem buffer_withBuffer_of_ne (notes : Notes) (buffer : LineBuffer) {stream other : OutputStream}
    (h : other ≠ stream) : (notes.withBuffer buffer stream).buffer other = notes.buffer other := by
  cases stream <;> cases other <;> first | rfl | exact absurd rfl h

theorem heard_toList (stream : OutputStream) (content : Option String) :
    heard stream (content.map (stream, ·)).toList = content.getD "" := by
  cases content <;> simp [heard]

theorem heard_toList_of_ne {stream other : OutputStream} (h : other ≠ stream)
    (content : Option String) : heard other (content.map (stream, ·)).toList = "" := by
  cases content <;> simp [heard, h.symm]

theorem heard_last (notes : Notes) (stream : OutputStream) :
    heard stream notes.last = (notes.buffer stream).pending := by
  rw [last, heard_append]
  cases stream
  · rw [heard_toList, heard_toList_of_ne (by decide), String.append_empty]
    exact notes.stdout.take_spec
  · rw [heard_toList, heard_toList_of_ne (by decide), String.empty_append]
    exact notes.stderr.take_spec

/-- In JSON form every piece is told as it is. -/
theorem tell_json (pid : Pid) (pieces : List Piece) :
    tell .json pid pieces = ({ pid }, pieces) := by
  induction pieces using List.reverseRecOn with
  | nil => rfl
  | append_singleton pieces p ih =>
    rw [tell_concat, ih]
    rfl

/-- Of each stream, what was told and the unfinished line are all that was handed over. -/
theorem heard_tell (format : Format) (pid : Pid) (pieces : List Piece) (stream : OutputStream) :
    heard stream (tell format pid pieces).2 ++ ((tell format pid pieces).1.buffer stream).pending =
      heard stream pieces := by
  cases format with
  | json =>
    rw [tell_json]
    cases stream <;> exact String.append_empty
  | text =>
    induction pieces using List.reverseRecOn with
    | nil => cases stream <;> rfl
    | append_singleton pieces p ih =>
      obtain ⟨source, text⟩ := p
      rw [tell_concat, heard_append, ← ih]
      generalize tell .text pid pieces = m
      simp only [step, push, heard_append, String.append_assoc]
      by_cases hstream : stream = source
      · subst hstream
        obtain ⟨hpush, -, -⟩ := (m.1.buffer stream).push_spec text
        rw [heard_toList, buffer_withBuffer, hpush]
        simp [heard]
      · rw [heard_toList_of_ne hstream, buffer_withBuffer_of_ne _ _ hstream]
        simp [heard, Ne.symm hstream]

/-- **In the end everything has been told.** -/
theorem heard_told (format : Format) (pid : Pid) (pieces : List Piece) (stream : OutputStream) :
    heard stream (told format pid pieces) = heard stream pieces := by
  rw [told, heard_append, heard_last, heard_tell]

end Notes

/-! ### Lines -/

def linesOf (stream : OutputStream) (contents : List Piece) : List String :=
  contents.flatMap fun p => if p.1 = stream then lines p.2 else []

theorem linesOf_append (stream : OutputStream) (contents more : List Piece) :
    linesOf stream (contents ++ more) = linesOf stream contents ++ linesOf stream more := by
  simp [linesOf]

/-- In text form only whole lines are told before the exit. -/
theorem Notes.terminated_tell (pid : Pid) (pieces : List Piece) :
    ∀ p ∈ (tell .text pid pieces).2, Terminated p.2 := by
  induction pieces using List.reverseRecOn with
  | nil => exact fun p hp => absurd hp List.not_mem_nil
  | append_singleton pieces p ih =>
    rw [tell_concat]
    generalize tell .text pid pieces = m at ih
    obtain ⟨-, hwhole, -⟩ := (m.1.buffer p.1).push_spec p.2
    intro q hq
    rcases List.mem_append.mp hq with hq | hq
    · exact ih q hq
    · obtain ⟨content, hcontent, rfl⟩ := Option.map_eq_some_iff.mp (Option.mem_toList.mp hq)
      have hpushed : ((m.1.buffer p.1).push p.2).2 = some content := hcontent
      rwa [hpushed] at hwhole

/-- Texts that end where a line does have the lines of their text. -/
theorem lines_heard {contents : List Piece} (h : ∀ p ∈ contents, Terminated p.2)
    (stream : OutputStream) (more : String) :
    lines (heard stream contents ++ more) = linesOf stream contents ++ lines more := by
  induction contents with
  | nil => exact congrArg lines String.empty_append
  | cons p rest ih =>
    obtain ⟨hp, hrest⟩ := List.forall_mem_cons.mp h
    rw [heard, linesOf, List.flatMap_cons]
    split
    · rw [String.append_assoc, lines_append hp, ih hrest, List.append_assoc]
      rfl
    · exact ih hrest

theorem linesOf_toList (stream : OutputStream) (content : Option String) :
    linesOf stream (content.map (stream, ·)).toList = lines (content.getD "") := by
  cases content <;> simp [linesOf, lines_empty]

theorem linesOf_toList_of_ne {stream other : OutputStream} (h : other ≠ stream)
    (content : Option String) : linesOf other (content.map (stream, ·)).toList = [] := by
  cases content <;> simp [linesOf, h.symm]

theorem Notes.linesOf_last (notes : Notes) (stream : OutputStream) :
    linesOf stream notes.last = lines (notes.buffer stream).pending := by
  rw [last, linesOf_append]
  cases stream
  · rw [linesOf_toList, linesOf_toList_of_ne (by decide), List.append_nil, LineBuffer.take_spec]
    rfl
  · rw [linesOf_toList, linesOf_toList_of_ne (by decide), List.nil_append, LineBuffer.take_spec]
    rfl

/-- **In text form the lines of what is told are those of the whole text**, however it was divided
into pieces. -/
theorem Notes.linesOf_told (pid : Pid) (pieces : List Piece) (stream : OutputStream) :
    linesOf stream (told .text pid pieces) = lines (heard stream pieces) := by
  rw [told, linesOf_append, linesOf_last, ← lines_heard (terminated_tell pid pieces), heard_tell]

/-! ### The events of a program -/

/-- The events of a program that was started tell that it was, then its output, then its exit. -/
structure Tells (program : Program) (pid : Pid) (contents : List Piece) (exit : Option ExitStatus)
    (events : List Event) : Prop where
  name : ∀ event ∈ events, event.name = program.name
  happenings : events.map (·.happening) = .started pid program.command program.args ::
    contents.map (fun p => .output pid p.1 p.2) ++ (exit.map (.exited pid)).toList

namespace Tells

variable {program : Program} {pid : Pid} {contents : List Piece} {exit : Option ExitStatus}
  {events : List Event}

theorem start (program : Program) (pid : Pid) (timestamp : String) :
    Tells program pid [] none
      [⟨program.name, .started pid program.command program.args, timestamp⟩] :=
  ⟨by simp, rfl⟩

/-- Before the exit, output may follow, and the exit. -/
theorem append (h : Tells program pid contents none events) (more : List Piece)
    (exit : Option ExitStatus) (timestamp : String) :
    Tells program pid (contents ++ more) exit
      (events ++
        (more.map (fun p => Happening.output pid p.1 p.2) ++
          (exit.map (Happening.exited pid)).toList).map
        fun happening => ⟨program.name, happening, timestamp⟩) := by
  obtain ⟨hname, hhappenings⟩ := h
  refine ⟨?_, ?_⟩
  · intro event hevent
    rcases List.mem_append.mp hevent with hevent | hevent
    · exact hname event hevent
    · obtain ⟨happening, -, rfl⟩ := List.mem_map.mp hevent
      rfl
  · rw [List.map_append, hhappenings, List.map_map]
    simp [Function.comp_def]

/-- What is told is what the events of output have. -/
theorem pieces (h : Tells program pid contents exit events) :
    events.filterMap Event.piece? = contents := by
  have hmap : events.filterMap Event.piece? = (events.map (·.happening)).filterMap fun
      | .output _ stream content => some (stream, content)
      | _ => none := by
    rw [List.filterMap_map]
    rfl
  rw [hmap, h.happenings]
  cases exit <;> simp [List.filterMap_map]

/-- An exit is told of if there was one. -/
theorem exited_iff (h : Tells program pid contents exit events) (status : ExitStatus) :
    (∃ event ∈ events, ∃ p, event.happening = .exited p status) ↔ exit = some status := by
  have hmem : (∃ event ∈ events, ∃ p, event.happening = .exited p status) ↔
      ∃ p, .exited p status ∈ events.map (·.happening) := by
    refine ⟨?_, ?_⟩
    · rintro ⟨event, hevent, p, hp⟩
      exact ⟨p, hp ▸ List.mem_map_of_mem hevent⟩
    · rintro ⟨p, hp⟩
      obtain ⟨event, hevent, hhappening⟩ := List.mem_map.mp hp
      exact ⟨event, hevent, p, hhappening⟩
  rw [hmem, h.happenings]
  cases exit with
  | none => simp
  | some last => simp [eq_comm]

end Tells

end Supervise

end Chaperone
