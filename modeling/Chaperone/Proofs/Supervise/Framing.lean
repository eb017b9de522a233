import Chaperone.Proofs.Process.Event
import Chaperone.Proofs.Supervise.Printed
import Chaperone.Proofs.Text.Encoding

/-!
# Events as lines of JSON

In JSON form an event is written as its document form and a newline.  There is no other newline in
what is written, so the bytes that a sink was given fall into one line for each event, and each
event is read back from its line (`read_of_reported`).  Nothing is asked of the texts in the events.
-/

namespace Chaperone

open Text.Utf8

namespace Sink

variable {κ : Type}

structure Transcript (sink : Sink κ) where
  written : κ → List UInt8
  accepts : sink.Accepts
  written_write : ∀ text k, written (sink.write text k).2 = written k ++ encode text
  written_flush : ∀ k, written (sink.flush k).2 = written k

def jsonLine (event : Event) : List UInt8 := encode (Json.render event.toDatum)

namespace Transcript

variable {sink : Sink κ} (transcript : sink.Transcript)

theorem written_report (event : Event) (k : κ) :
    transcript.written (sink.report .json event k) =
      transcript.written k ++ (jsonLine event ++ [10]) := by
  rw [transcript.accepts.report, Sink.print, transcript.written_flush]
  show transcript.written (sink.write (Json.render event.toDatum ++ "\n") k).2 = _
  have hnewline : encode "\n" = [10] := by
    rw [encode_eq_flatMap]
    decide
  rw [transcript.written_write, encode_append, hnewline]
  rfl

/-- The events are written one after the other. -/
theorem written_reports (events : List Event) (k : κ) :
    transcript.written (events.foldl (fun k event => sink.report .json event k) k) =
      transcript.written k ++ (events.map jsonLine).flatMap (· ++ [10]) := by
  induction events generalizing k with
  | nil => exact (List.append_nil _).symm
  | cons event rest ih =>
    rw [List.foldl_cons, ih, written_report, List.append_assoc]
    rfl

end Transcript

/-- There is no newline in the line of an event. -/
theorem newline_not_mem_jsonLine (event : Event) : 10 ∉ jsonLine event := by
  intro h
  have hnewline := (newline_mem_encode_iff _).mp h
  have hleast := Json.oneLine_render event.toDatum event.plain_toDatum _ hnewline
  revert hleast
  decide

/-- Lines that are each followed by a newline are found again. -/
theorem splitOn_lines {lines : List (List UInt8)} (h : ∀ line ∈ lines, 10 ∉ line) :
    (lines.flatMap (· ++ [10])).splitOn 10 = lines ++ [[]] := by
  induction lines with
  | nil => rfl
  | cons line rest ih =>
    obtain ⟨hline, hrest⟩ := List.forall_mem_cons.mp h
    rw [List.flatMap_cons, List.append_assoc, List.singleton_append,
      List.splitOn_append_cons_self_of_not_mem hline, ih hrest]
    rfl

end Sink

open Sink (jsonLine)

def ReadsAs (line : List UInt8) (event : Event) : Prop :=
  ∃ text, decode? line = some text ∧ Json.decode Event.decode text = .ok event

theorem readsAs_jsonLine (event : Event) : ReadsAs (jsonLine event) event :=
  ⟨Json.render event.toDatum, decode?_encode _, event.decode_render⟩

/-- **Events that are reported in JSON form are read back from the lines that were written**,
whatever texts are in them.  The bytes that a sink was given fall into one line for each event, in
the order of the events, with nothing after the last newline. -/
theorem read_of_reported {κ : Type} {sink : Sink κ} (transcript : sink.Transcript)
    (events : List Event) (k : κ) :
    ∃ bytes lines,
      transcript.written (events.foldl (fun k event => sink.report .json event k) k) =
        transcript.written k ++ bytes ∧
      bytes.splitOn 10 = lines ++ [[]] ∧ List.Forall₂ ReadsAs lines events := by
  refine ⟨_, events.map jsonLine, transcript.written_reports events k, Sink.splitOn_lines ?_, ?_⟩
  · intro line hline
    obtain ⟨event, -, rfl⟩ := List.mem_map.mp hline
    exact Sink.newline_not_mem_jsonLine event
  · rw [List.forall₂_map_left_iff]
    exact List.forall₂_same.mpr fun event _ => readsAs_jsonLine event

/-! ### An example -/

def Sink.Transcript.keeping : Sink.keeping.Transcript where
  written := encode
  accepts := Sink.accepts_keeping
  written_write text k := encode_append k text
  written_flush _ := rfl

/-- Two events that are full of quotes, newlines and other control characters. -/
def awkwardEvents : List Event :=
  [⟨"\"a\"\n", .started 7 "b\\" ["\n", "\x7f\x00", ""], "now"⟩,
    ⟨"\"a\"\n", .exited 7 (.signaled 9), "\t"⟩]

theorem read_of_awkwardEvents :
    ∃ lines, (encode (awkwardEvents.foldl (fun k event => Sink.keeping.report .json event k)
      "")).splitOn 10 = lines ++ [[]] ∧ List.Forall₂ ReadsAs lines awkwardEvents := by
  obtain ⟨bytes, lines, hwritten, hlines, hreads⟩ :=
    read_of_reported Sink.Transcript.keeping awkwardEvents ""
  have hempty : Sink.Transcript.keeping.written "" = [] := by
    show encode "" = []
    rw [encode_eq_flatMap]
    rfl
  rw [hempty, List.nil_append] at hwritten
  refine ⟨lines, ?_, hreads⟩
  rw [← hlines, ← hwritten]
  rfl

end Chaperone
