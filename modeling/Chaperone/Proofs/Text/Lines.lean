import Chaperone.Text.Lines
import Mathlib.Data.List.TakeWhile

/-!
# The lines of a text in pieces

The lines of a text are those of its parts, if each part but the last ends where a line does
(`lines_append`).  A `LineBuffer` hands on such parts: what it was given is what it handed on, in
which every line has its newline, and then what it holds, in which no line has
(`LineBuffer.push_spec`, `LineBuffer.take_spec`).
-/

namespace Chaperone.Text

def Terminated (text : String) : Prop := ∀ c, text.toList.getLast? = some c → c = '\n'

theorem Terminated.append {text more : String} (h : Terminated text) (hmore : Terminated more) :
    Terminated (text ++ more) := by
  intro c hc
  rw [String.toList_append, List.getLast?_append] at hc
  cases hlast : more.toList.getLast? with
  | none =>
    rw [hlast] at hc
    exact h c hc
  | some last =>
    rw [hlast] at hc
    obtain rfl : last = c := Option.some.inj hc
    exact hmore last hlast

/-! ### Dividing a text -/

theorem splitStep_newline (read : List Char) (done : List String) :
    splitStep (read, done) '\n' = ([], closeLine read :: done) := rfl

theorem splitStep_of_ne {c : Char} (h : c ≠ '\n') (read : List Char) (done : List String) :
    splitStep (read, done) c = (c :: read, done) := by
  rw [splitStep]
  exact h

/-- The division of a text goes on below the lines that are done. -/
theorem foldl_splitStep (cs : List Char) (read : List Char) (done : List String) :
    cs.foldl splitStep (read, done) =
      ((cs.foldl splitStep (read, [])).1, (cs.foldl splitStep (read, [])).2 ++ done) := by
  induction cs generalizing read done with
  | nil => rfl
  | cons c cs ih =>
    rw [List.foldl_cons, List.foldl_cons]
    by_cases hc : c = '\n'
    · subst hc
      rw [splitStep_newline, splitStep_newline, ih [] (_ :: done), ih [] [_], List.append_assoc]
      rfl
    · rw [splitStep_of_ne hc, splitStep_of_ne hc, ih]

/-- Nothing is left of the last line of a text in which every line ends with a newline. -/
theorem fst_foldl_splitStep {text : String} (h : Terminated text) :
    (text.toList.foldl splitStep ([], [])).1 = [] := by
  cases hlast : text.toList.getLast? with
  | none =>
    rw [List.getLast?_eq_none_iff.mp hlast]
    rfl
  | some c =>
    obtain ⟨before, htext⟩ := List.getLast?_eq_some_iff.mp hlast
    obtain rfl := h c hlast
    rw [htext, List.foldl_append]
    rfl

/-- The lines of a text that continues whole lines are these lines and its own. -/
theorem lines_append {text : String} (h : Terminated text) (more : String) :
    lines (text ++ more) = lines text ++ lines more := by
  have hread := fst_foldl_splitStep h
  simp only [lines, String.toList_append, List.foldl_append]
  generalize text.toList.foldl splitStep ([], []) = first at hread ⊢
  obtain ⟨read, done⟩ := first
  obtain rfl : read = [] := hread
  rw [foldl_splitStep]
  generalize more.toList.foldl splitStep ([], []) = rest
  obtain ⟨read, done'⟩ := rest
  cases read <;> simp

/-- A carriage return ends with its line, but not what no newline follows. -/
example : lines ("a\r\n\n\r\r\n" ++ "b\r") = ["a", "", "\r"] ++ ["b\r"] := by decide

theorem lines_empty : lines "" = [] := rfl

namespace LineBuffer

/-- What is handed on and what is held make up what was held before and the piece. -/
theorem push_spec (buffer : LineBuffer) (piece : String) :
    (buffer.push piece).2.getD "" ++ (buffer.push piece).1.pending = buffer.pending ++ piece ∧
      Terminated ((buffer.push piece).2.getD "") ∧
      '\n' ∉ (buffer.push piece).1.pending.toList := by
  have hsplit := List.takeWhile_append_dropWhile (p := (· ≠ '\n'))
    (l := (buffer.pending ++ piece).toList.reverse)
  have hunfinished : '\n' ∉ (buffer.pending ++ piece).toList.reverse.takeWhile (· ≠ '\n') := by
    intro hmem
    have hne := List.mem_takeWhile_imp hmem
    simp at hne
  have hfinished : ∀ c,
      ((buffer.pending ++ piece).toList.reverse.dropWhile (· ≠ '\n')).head? = some c →
        c = '\n' := by
    intro c hc
    rw [← List.find?_not_eq_head?_dropWhile] at hc
    simpa using List.find?_some hc
  simp only [push]
  generalize (buffer.pending ++ piece).toList.reverse.takeWhile (· ≠ '\n') = unfinished
    at hsplit hunfinished ⊢
  generalize (buffer.pending ++ piece).toList.reverse.dropWhile (· ≠ '\n') = finished
    at hsplit hfinished ⊢
  have htext : (buffer.pending ++ piece).toList = finished.reverse ++ unfinished.reverse := by
    rw [← List.reverse_append, hsplit, List.reverse_reverse]
  have hpending : '\n' ∉ (String.ofList unfinished.reverse).toList := by simpa using hunfinished
  refine ⟨?_, ?_, hpending⟩
  · rw [← String.toList_inj, htext]
    cases finished <;> simp
  · intro c hc
    refine hfinished c ?_
    cases finished with
    | nil => simp at hc
    | cons first rest => simpa using hc

/-- What is held at the end is handed on, if there is any. -/
theorem take_spec (buffer : LineBuffer) : buffer.take.2.getD "" = buffer.pending := by
  rw [take]
  split
  · next h => exact (String.isEmpty_iff.mp h).symm
  · rfl

end LineBuffer

end Chaperone.Text
