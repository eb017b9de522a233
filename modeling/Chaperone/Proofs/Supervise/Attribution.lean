import Chaperone.Proofs.Supervise.Validity
import Chaperone.Supervise.Report

/-!
# What a line of output can be told from

In text form a line of output begins with the name of its program, and `":err"` after it if the line
comes from the standard error.  The programs of a plan that is accepted have different names, so the
tag tells the program and the stream, but for one case: the standard output of a program looks like
the standard error of another one if its name is that of the other one with `":err"` after it
(`Plan.tags_of_accepted`).  Nothing in the checks of a plan rules that out (`Plan.tags_of_lookalike`).
-/

namespace Chaperone

/-- What stands between the brackets in front of a line of output. -/
def outputLabel (name : String) : OutputStream → String
  | .stdout => name
  | .stderr => name ++ ":err"

theorem outputTag_eq (name : String) (stream : OutputStream) :
    outputTag name stream = "[" ++ outputLabel name stream ++ "]" := by
  cases stream with
  | stdout => rfl
  | stderr =>
    show "[" ++ name ++ ":err]" = "[" ++ (name ++ ":err") ++ "]"
    rw [String.append_assoc, String.append_assoc, String.append_assoc]
    rfl

theorem outputTag_inj {name other : String} {stream stream' : OutputStream} :
    outputTag name stream = outputTag other stream' ↔
      outputLabel name stream = outputLabel other stream' := by
  rw [outputTag_eq, outputTag_eq]
  constructor
  · intro h
    exact (String.append_right_inj "[").mp ((String.append_left_inj "]").mp h)
  · intro h
    rw [h]

def Mimics (name other : String) : Prop := name = other ++ ":err"

/-- When labels are the same. -/
theorem outputLabel_eq_iff {name other : String} {stream stream' : OutputStream} :
    outputLabel name stream = outputLabel other stream' ↔
      name = other ∧ stream = stream' ∨
      (stream = .stdout ∧ stream' = .stderr ∧ Mimics name other) ∨
      (stream = .stderr ∧ stream' = .stdout ∧ Mimics other name) := by
  cases stream <;> cases stream' <;> simp [outputLabel, Mimics, eq_comm]

namespace Plan

variable {plan : Plan}

/-- In a plan that is as it has to be, a name tells the place. -/
theorem Valid.name_inj (h : plan.Valid) {i j : Nat} {program other : Program}
    (hi : plan.programs[i]? = some program) (hj : plan.programs[j]? = some other) :
    program.name = other.name ↔ i = j := by
  constructor
  · intro hname
    have hbound : i < (plan.programs.map Program.name).length := by
      rw [List.length_map]
      exact (List.getElem?_eq_some_iff.mp hi).1
    apply (List.getElem?_inj hbound h.names).mp
    rw [List.getElem?_map, List.getElem?_map, hi, hj]
    exact congrArg some hname
  · rintro rfl
    rw [hi] at hj
    rw [Option.some.inj hj]

/-- **What the tag of a line of output tells.**  In a plan that is accepted, two streams of programs
have different tags, but for a standard output and a standard error of which the one program mimics
the other. -/
theorem tags_of_accepted (haccepted : plan.validate = .ok ()) {i j : Nat} {program other : Program}
    (hi : plan.programs[i]? = some program) (hj : plan.programs[j]? = some other)
    (stream stream' : OutputStream) :
    outputTag program.name stream = outputTag other.name stream' ↔
      i = j ∧ stream = stream' ∨
      (stream = .stdout ∧ stream' = .stderr ∧ Mimics program.name other.name) ∨
      (stream = .stderr ∧ stream' = .stdout ∧ Mimics other.name program.name) := by
  have hvalid : plan.Valid := (verdict_of_validate plan).1.mp haccepted
  rw [outputTag_inj, outputLabel_eq_iff, hvalid.name_inj hi hj]

def lookalike : Plan where
  programs :=
    [{ name := "a", command := "sleep 0.3; echo one >&2", shell := true },
      { name := "a:err", command := "echo two", shell := true }]

/-- The plan is accepted, and a line on the standard error of its first program is reported as one on
the standard output of the second. -/
theorem tags_of_lookalike :
    lookalike.validate = .ok () ∧ outputTag "a" .stderr = outputTag "a:err" .stdout ∧
      Event.textLines ⟨"a", .output 1 .stderr "one\n", "now"⟩ =
        Event.textLines ⟨"a:err", .output 2 .stdout "one\n", "now"⟩ := by
  have haccepted : lookalike.validate = .ok () := by decide
  have htags := (tags_of_accepted haccepted (i := 0) (j := 1) rfl rfl .stderr .stdout).mpr
    (Or.inr (Or.inr ⟨rfl, rfl, rfl⟩))
  refine ⟨haccepted, htags, ?_⟩
  show (Text.lines "one\n").map _ = (Text.lines "one\n").map _
  rw [htags]

end Plan

end Chaperone
