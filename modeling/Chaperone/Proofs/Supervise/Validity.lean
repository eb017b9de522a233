import Chaperone.Proofs.Launch.Search
import Chaperone.Supervise.Plan
import Mathlib.Data.List.DropRight

/-!
# Which plans are accepted

`Plan.Valid` says what a plan has to be like, without any order.  `Plan.Has` says that something is
wrong with a plan, whatever else is, and `Plan.checks` lists what can be wrong with it in the order
in which that is reported: the interval, then that there are no programs, and then program by
program what is wrong with each one.

A plan is accepted if and only if it is valid, and otherwise what is reported is the first thing in
this order that is wrong with it (`Plan.verdict_of_validate`).  The induction is on the programs that
are left; it carries those that have been passed.
-/

namespace Chaperone

namespace Text

def trim (text : String) : String :=
  String.ofList ((text.toList.dropWhile isSpace).rdropWhile isSpace)

/-- A text is blank when trimming leaves nothing of it. -/
theorem isBlank_iff {text : String} : isBlank text = true ↔ trim text = "" := by
  rw [trim, ← String.toList_eq_nil_iff, String.toList_ofList, List.rdropWhile_eq_nil_iff, isBlank,
    List.all_eq_true]
  constructor
  · intro h c hc
    exact h c ((List.dropWhile_suffix isSpace).subset hc)
  · intro h c hc
    -- a character of the text is one of those that are dropped first, or one of the others
    rw [← List.takeWhile_append_dropWhile (p := isSpace) (l := text.toList)] at hc
    rcases List.mem_append.mp hc with hdropped | hleft
    · exact List.mem_takeWhile_imp hdropped
    · exact h c hleft

end Text

/-! ### Checks that are made one after another -/

section
variable {α : Type} {P : α → Prop} [DecidablePred P]

theorem find?_cons_eq_ite (P : α → Prop) [DecidablePred P] (x : α) (rest : List α) :
    ((x :: rest).find? fun y => P y) = if P x then some x else rest.find? fun y => P y := by
  rw [List.find?_cons]
  by_cases h : P x
  · rw [if_pos h, decide_eq_true h]
  · rw [if_neg h, decide_eq_false h]

theorem find?_eq_some_iff_isFirst {all : List α} {x : α} :
    (all.find? fun y => P y) = some x ↔ IsFirst P all x := by
  simp [List.find?_eq_some_iff_append, IsFirst]

/-- Things are different if none is among those before it. -/
theorem nodup_iff_not_mem_take {all : List α} :
    all.Nodup ↔ ∀ (i : Nat) (x : α), all[i]? = some x → x ∉ all.take i := by
  constructor
  · intro h i x hx hmem
    have hdrop : x ∈ all.drop i := by
      rw [List.mem_iff_getElem?]
      exact ⟨0, by rwa [List.getElem?_drop]⟩
    exact List.disjoint_take_drop h (Nat.le_refl i) hmem hdrop
  · intro h
    rw [List.nodup_iff_getElem?_ne_getElem?]
    intro i j hij hj heq
    have hx : all[j]? = some all[j] := List.getElem?_eq_getElem hj
    refine h j all[j] hx (List.mem_iff_getElem?.mpr ⟨i, ?_⟩)
    rw [List.getElem?_take_of_lt hij, heq, hx]

end

/-! ### Programs -/

namespace Program

structure Valid (program : Program) : Prop where
  name : Text.trim program.name ≠ ""
  command : Text.trim program.command ≠ ""
  args : program.shell = true → program.args = []
  environment : ∀ name ∈ program.environment.names, Text.trim name ≠ ""
  workingDirectory : program.workingDirectory ≠ some ""

/-- A program that comes after programs with these names has a fault, whatever other faults it
has. -/
def Has (earlier : List String) (program : Program) : ProgramFault → Prop
  | .blankName => Text.trim program.name = ""
  | .duplicateName name => name = program.name ∧ name ∈ earlier
  | .blankCommand => Text.trim program.command = ""
  | .argsWithShell => program.shell = true ∧ program.args ≠ []
  | .blankVariable => ∃ name ∈ program.environment.names, Text.trim name = ""
  | .emptyWorkingDirectory => program.workingDirectory = some ""

instance (earlier : List String) (program : Program) : DecidablePred (program.Has earlier)
  | .blankName => inferInstanceAs (Decidable (_ = _))
  | .duplicateName _ => inferInstanceAs (Decidable (_ ∧ _))
  | .blankCommand => inferInstanceAs (Decidable (_ = _))
  | .argsWithShell => inferInstanceAs (Decidable (_ ∧ _))
  | .blankVariable => inferInstanceAs (Decidable (∃ name ∈ program.environment.names, _))
  | .emptyWorkingDirectory => inferInstanceAs (Decidable (_ = _))

/-- What can be wrong with a program, in the order in which it is reported. -/
def checks (program : Program) : List ProgramFault :=
  [.blankName, .duplicateName program.name, .blankCommand, .argsWithShell, .blankVariable,
    .emptyWorkingDirectory]

variable {earlier seen : List String} {program : Program} {fault : ProgramFault}

theorem mem_checks (h : program.Has earlier fault) : fault ∈ program.checks := by
  cases fault with
  | duplicateName name =>
    obtain ⟨rfl, -⟩ := h
    simp [checks]
  | _ => simp [checks]

/-- It does not matter in which order the names came. -/
theorem has_congr (h : ∀ name, name ∈ earlier ↔ name ∈ seen) :
    program.Has earlier fault ↔ program.Has seen fault := by
  cases fault with
  | duplicateName name => exact and_congr_right fun _ => h name
  | _ => exact Iff.rfl

/-- What is reported of a program is the first of its faults. -/
theorem fault?_eq (earlier : List String) (program : Program) :
    program.fault? earlier = program.checks.find? fun fault => program.Has earlier fault := by
  have hargs : (program.shell && !program.args.isEmpty) = true ↔
      program.Has earlier .argsWithShell := by
    simp [Has]
  have hvariable : program.environment.names.any Text.isBlank = true ↔
      program.Has earlier .blankVariable := by
    rw [List.any_eq_true]
    simp only [Text.isBlank_iff]
    exact Iff.rfl
  have hduplicate : earlier.contains program.name = true ↔
      program.Has earlier (.duplicateName program.name) := by
    simp [Has]
  unfold fault? checks
  simp only [find?_cons_eq_ite, Text.isBlank_iff, hduplicate, hargs, hvariable]
  rfl

/-- A program that is as it has to be can only have the name of another one. -/
theorem valid_iff : program.Valid ∧ program.name ∉ earlier ↔ ∀ fault, ¬program.Has earlier fault := by
  constructor
  · rintro ⟨h, hnew⟩ fault hfault
    cases fault with
    | blankName => exact h.name hfault
    | duplicateName name =>
      obtain ⟨rfl, hearlier⟩ := hfault
      exact hnew hearlier
    | blankCommand => exact h.command hfault
    | argsWithShell => exact hfault.2 (h.args hfault.1)
    | blankVariable =>
      obtain ⟨name, hname, hblank⟩ := hfault
      exact h.environment name hname hblank
    | emptyWorkingDirectory => exact h.workingDirectory hfault
  · intro h
    refine ⟨⟨h .blankName, h .blankCommand, ?_, ?_, h .emptyWorkingDirectory⟩, ?_⟩
    · intro hshell
      by_contra hargs
      exact h .argsWithShell ⟨hshell, hargs⟩
    · intro name hname hblank
      exact h .blankVariable ⟨name, hname, hblank⟩
    · intro hearlier
      exact h (.duplicateName program.name) ⟨rfl, hearlier⟩

end Program

/-! ### Plans -/

namespace Plan

structure Valid (plan : Plan) : Prop where
  interval : 0 < plan.pollingIntervalMs
  programs : plan.programs ≠ []
  names : (plan.programs.map Program.name).Nodup
  each : ∀ program ∈ plan.programs, program.Valid

def Has (plan : Plan) : Violation → Prop
  | .zeroInterval => plan.pollingIntervalMs = 0
  | .noPrograms => plan.programs = []
  | .program index fault => ∃ program ∈ plan.programs[index]?,
      program.Has ((plan.programs.take index).map Program.name) fault

instance (plan : Plan) : DecidablePred plan.Has
  | .zeroInterval => inferInstanceAs (Decidable (_ = _))
  | .noPrograms => inferInstanceAs (Decidable (_ = _))
  | .program index _ => inferInstanceAs (Decidable (∃ program ∈ plan.programs[index]?, _))

def checksFrom (index : Nat) (programs : List Program) : List Violation :=
  (programs.zipIdx index).flatMap fun (program, index) =>
    program.checks.map (Violation.program index)

def checks (plan : Plan) : List Violation :=
  .zeroInterval :: .noPrograms :: checksFrom 0 plan.programs

variable {plan : Plan} {violation : Violation}

/-- Nothing is wrong with a plan that is not looked for. -/
theorem mem_checks (h : plan.Has violation) : violation ∈ plan.checks := by
  cases violation with
  | zeroInterval => simp [checks]
  | noPrograms => simp [checks]
  | program index fault =>
    obtain ⟨program, hprogram, hfault⟩ := h
    have hindexed : (program, index) ∈ plan.programs.zipIdx :=
      List.mem_zipIdx_iff_getElem?.mpr hprogram
    refine List.mem_cons_of_mem _ (List.mem_cons_of_mem _ ?_)
    exact List.mem_flatMap.mpr ⟨(program, index), hindexed,
      List.mem_map_of_mem (Program.mem_checks hfault)⟩

/-- What the program after these ones has is judged by their names. -/
theorem has_program_iff {done rest : List Program} {program : Program} {fault : ProgramFault}
    (h : plan.programs = done ++ program :: rest) :
    plan.Has (.program done.length fault) ↔ program.Has (done.map Program.name) fault := by
  show (∃ other ∈ plan.programs[done.length]?, _) ↔ _
  simp [h]

theorem checksFrom_cons (index : Nat) (program : Program) (rest : List Program) :
    checksFrom index (program :: rest) =
      program.checks.map (Violation.program index) ++ checksFrom (index + 1) rest := rfl

/-- What is reported of the programs that are left is the first thing that is wrong with them. -/
theorem violationFrom_eq (plan : Plan) (done rest : List Program) (h : plan.programs = done ++ rest) :
    violationFrom (done.map Program.name).reverse done.length rest =
      (checksFrom done.length rest).find? fun violation => plan.Has violation := by
  induction rest generalizing done with
  | nil => rfl
  | cons program rest ih =>
    have hrest := ih (done ++ [program]) (by rw [h, List.append_assoc, List.singleton_append])
    rw [List.map_append, List.reverse_append, List.length_append] at hrest
    -- the faults of this program are those that the plan has at this place
    have hfault : program.fault? (done.map Program.name).reverse =
        program.checks.find? fun fault => plan.Has (.program done.length fault) := by
      rw [Program.fault?_eq]
      refine congrArg (List.find? · _) (funext fun fault => ?_)
      rw [decide_eq_decide, has_program_iff h]
      exact Program.has_congr fun name => List.mem_reverse
    rw [violationFrom, checksFrom_cons, List.find?_append, List.find?_map, hfault]
    change _ = Option.or (Option.map _ (program.checks.find? fun fault =>
      plan.Has (.program done.length fault))) _
    cases program.checks.find? fun fault => plan.Has (.program done.length fault) with
    | some fault => rfl
    | none => exact hrest

/-- What is reported of a plan is the first thing that is wrong with it. -/
theorem violation?_eq (plan : Plan) :
    plan.violation? = plan.checks.find? fun violation => plan.Has violation := by
  have hnone : plan.programs.isEmpty = true ↔ plan.Has .noPrograms := List.isEmpty_iff
  have hrest : violationFrom [] 0 plan.programs =
      (checksFrom 0 plan.programs).find? fun violation => plan.Has violation :=
    violationFrom_eq plan [] plan.programs rfl
  unfold violation? checks
  rw [find?_cons_eq_ite, find?_cons_eq_ite, hrest]
  simp only [hnone]
  rfl

/-- Nothing is wrong with a plan that is as it has to be, and with no other one. -/
theorem valid_iff : plan.Valid ↔ ∀ violation, ¬plan.Has violation := by
  constructor
  · intro h violation hviolation
    cases violation with
    | zeroInterval => exact Nat.ne_of_gt h.interval hviolation
    | noPrograms => exact h.programs hviolation
    | program index fault =>
      obtain ⟨program, hprogram, hfault⟩ := hviolation
      have hnew : program.name ∉ (plan.programs.take index).map Program.name := by
        rw [List.map_take]
        refine nodup_iff_not_mem_take.mp h.names index program.name ?_
        rw [List.getElem?_map, hprogram]
        rfl
      exact Program.valid_iff.mp ⟨h.each program (List.mem_of_getElem? hprogram), hnew⟩ fault hfault
  · intro h
    -- a program at any place is as it has to be, and has a name of its own
    have hvalid (index : Nat) (program : Program) (hprogram : plan.programs[index]? = some program) :
        program.Valid ∧ program.name ∉ (plan.programs.take index).map Program.name := by
      rw [Program.valid_iff]
      intro fault hfault
      exact h (.program index fault) ⟨program, hprogram, hfault⟩
    refine ⟨Nat.pos_of_ne_zero (h .zeroInterval), h .noPrograms, ?_, ?_⟩
    · refine nodup_iff_not_mem_take.mpr fun index name hname => ?_
      rw [List.getElem?_map, Option.map_eq_some_iff] at hname
      obtain ⟨program, hprogram, rfl⟩ := hname
      rw [← List.map_take]
      exact (hvalid index program hprogram).2
    · intro program hmem
      obtain ⟨index, hprogram⟩ := List.mem_iff_getElem?.mp hmem
      exact (hvalid index program hprogram).1

/-- **Which plans are accepted, and what is reported of the others.**  A plan is accepted if and only
if it is as it has to be.  Of any other one the first thing is reported that is wrong with it, in
the order of `Plan.checks`. -/
theorem verdict_of_validate (plan : Plan) :
    (plan.validate = .ok () ↔ plan.Valid) ∧
    ∀ failure, plan.validate = .error failure ↔
      ∃ violation, IsFirst plan.Has plan.checks violation ∧
        failure = .validation violation.message := by
  have hfirst (violation : Violation) :
      plan.violation? = some violation ↔ IsFirst plan.Has plan.checks violation := by
    rw [violation?_eq, find?_eq_some_iff_isFirst]
  have hnone : plan.violation? = none ↔ plan.Valid := by
    rw [violation?_eq, List.find?_eq_none, valid_iff]
    constructor
    · intro h violation hviolation
      exact h violation (mem_checks hviolation) (decide_eq_true hviolation)
    · intro h violation _ hviolation
      exact h violation (of_decide_eq_true hviolation)
  rw [← hnone]
  simp only [← hfirst]
  unfold validate
  cases plan.violation? with
  | none => exact ⟨by simp, by simp⟩
  | some violation => exact ⟨by simp, by simp [eq_comm]⟩

/-- A name that is used twice is reported at its second use, before what is wrong with a later
program. -/
example :
    Plan.violation? { programs := [{ name := "a", command := "true" },
      { name := "a", command := " " }, { name := "", command := "true" }] } =
    some (.program 1 (.duplicateName "a")) := by decide

end Plan

end Chaperone
