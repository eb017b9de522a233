import Chaperone.Process.Program
import Chaperone.Process.Result
import Chaperone.Proofs.Document.Defaults
import Chaperone.Proofs.Process.Event
import Mathlib.Data.List.Perm.Basic

/-!
# What is configured, from its document form

Launch options, programs, results and exit statuses are decoded from the JSON texts that write them
(`decode_of_written`).  The variables of an environment may stand in any order, and a member that
has its default as its value may be left out: then the decoder supplies it.

In its document form a record lacks the members for what is absent.  These members could as well be
null, so the document form is itself one in which members with a default value are left out, of an
object with a member for every field (`LaunchOptions.allMembers`, `Program.allMembers`).
-/

namespace Chaperone

/-! ### Environments -/

namespace Environment

theorem perm_insertEntry {name value : String} {entries : List (String × String)}
    (hnew : name ∉ entries.map (·.1)) :
    (insertEntry name value entries).Perm ((name, value) :: entries) := by
  induction entries with
  | nil => exact .refl _
  | cons first rest ih =>
    obtain ⟨n, v⟩ := first
    obtain ⟨hne, hrest⟩ := not_or.mp (List.mem_cons.not.mp hnew)
    rw [insertEntry, if_neg hne]
    split
    · exact .refl _
    · exact ((ih hrest).cons _).trans (.swap _ _ _)

theorem perm_foldl_insert (environment : Environment) {entries : List (String × String)}
    (hnodup : ((environment.entries ++ entries).map (·.1)).Nodup) :
    (entries.foldl (fun environment (name, value) => environment.insert name value)
      environment).entries.Perm (environment.entries ++ entries) := by
  induction entries generalizing environment with
  | nil =>
    rw [List.append_nil]
    exact .refl _
  | cons first rest ih =>
    obtain ⟨name, value⟩ := first
    have hmiddle : (environment.entries ++ (name, value) :: rest).Perm
        ((name, value) :: (environment.entries ++ rest)) := List.perm_middle
    have hall := ((hmiddle.map (·.1)).nodup_iff).mp hnodup
    have hnew : name ∉ environment.entries.map (·.1) := by
      intro hmem
      refine (List.nodup_cons.mp hall).1 ?_
      rw [List.map_append]
      exact List.mem_append_left _ hmem
    have hinsert : (environment.insert name value).entries.Perm
        ((name, value) :: environment.entries) := perm_insertEntry hnew
    have hnext := hinsert.append_right rest
    have hrest := ih (environment.insert name value) (((hnext.map (·.1)).nodup_iff).mpr hall)
    exact (hrest.trans hnext).trans hmiddle.symm

/-- An environment is made of its variables, in whatever order. -/
theorem ofList_of_perm {environment : Environment} {bindings : List (String × String)}
    (h : bindings.Perm environment.entries) : ofList bindings = environment := by
  have hnames : (environment.entries.map (·.1)).Nodup := by
    refine List.Pairwise.map _ ?_ environment.sorted
    rintro first second hlt heq
    exact String.lt_irrefl _ (heq ▸ hlt)
  have hperm : (ofList bindings).entries.Perm environment.entries :=
    (perm_foldl_insert empty (((h.map (·.1)).nodup_iff).mpr hnames)).trans h
  have hentries : (ofList bindings).entries = environment.entries := by
    refine hperm.eq_of_pairwise ?_ (ofList bindings).sorted environment.sorted
    intro first second _ _ hlt hgt
    exact absurd (String.lt_trans hlt hgt) (String.lt_irrefl _)
  cases environment
  cases hlist : ofList bindings
  simpa [hlist] using hentries

def written (bindings : List (String × String)) : Datum :=
  .object (bindings.map fun (name, value) => (name, .string value))

theorem decode_written (delivery : Delivery) {environment : Environment}
    {bindings : List (String × String)} (h : bindings.Perm environment.entries) :
    decode delivery (written bindings) = .ok environment := by
  have hmembers (bindings : List (String × String)) :
      Decode.members Decode.text delivery (written bindings) = .ok bindings := by
    show (bindings.map fun binding => (binding.1, Datum.string binding.2)).mapM
      (fun member => (Decode.text delivery member.2).map (member.1, ·)) = _
    induction bindings with
    | nil => rfl
    | cons first rest ih =>
      rw [List.map_cons, List.mapM_cons, ih]
      rfl
  rw [decode, hmembers, ← ofList_of_perm h]
  rfl

theorem plain_written (depth : Nat) (bindings : List (String × String)) :
    Json.Plain (depth + 1) (written bindings) := by
  refine ⟨Nat.succ_pos _, ?_⟩
  induction bindings with
  | nil => trivial
  | cons first rest ih => exact ⟨trivial, ih⟩

theorem eq_empty_of_perm {environment : Environment} {bindings : List (String × String)}
    (h : bindings.Perm environment.entries) (hnone : written bindings = .object []) :
    environment = empty := by
  obtain rfl : bindings = [] := by simpa [written] using hnone
  exact (ofList_of_perm h).symm

end Environment

/-! ### Fields that may be null -/

namespace Decode

theorem bool_bool (delivery : Delivery) (value : Bool) : bool delivery (.bool value) = .ok value :=
  rfl

theorem text_string (delivery : Delivery) (value : String) :
    text delivery (.string value) = .ok value := rfl

def orNull (value : Option String) : Datum := value.elim .null .string

theorem nullable_text (delivery : Delivery) (value : Option String) :
    nullable text delivery (orNull value) = .ok value := by
  cases value <;> rfl

theorem nullable_path (delivery : Delivery) (value : Option String) :
    nullable path delivery (orNull value) = .ok value := by
  cases value <;> rfl

theorem orNull_eq_null {value : Option String} (h : orNull value = .null) : value = none := by
  cases value with
  | none => rfl
  | some text => cases h

theorem plain_orNull (depth : Nat) (value : Option String) : Json.Plain depth (orNull value) := by
  cases value <;> trivial

end Decode

/-- A rule of a field that may be left out accepts what its decoder decodes. -/
theorem check_optional {α : Type} {decode : Decode α} {delivery : Delivery} {d : Datum} {a : α}
    (name : String) (h : decode delivery d = .ok a) :
    (FieldRule.optional name decode).check delivery d = .ok () := check_needed name h

/-! ### Launch options -/

theorem Connection.decode_name (delivery : Delivery) (connection : Connection) :
    decode delivery (.string connection.name) = .ok connection := by
  cases connection <;> rfl

theorem Connection.eq_pipe {connection : Connection} (h : connection.name = "pipe") :
    connection = .pipe := by
  revert h
  cases connection <;> decide

theorem EnvironmentBase.decode_name (delivery : Delivery) (base : EnvironmentBase) :
    decode delivery (.string base.name) = .ok base := by
  cases base <;> rfl

theorem EnvironmentBase.eq_inherit {base : EnvironmentBase} (h : base.name = "inherit") :
    base = .inherit := by
  revert h
  cases base <;> decide

namespace LaunchOptions

/-- The members of launch options, with the variables in an order. -/
def members (options : LaunchOptions) (bindings : List (String × String)) : Fields :=
  (options.workingDirectory.map fun path => ("workingDirectory", Datum.string path)).toList ++
  [ ("environment", Environment.written bindings),
    ("environmentMode", .string options.environmentBase.name),
    ("stdin", .string options.stdin.name),
    ("stdout", .string options.stdout.name),
    ("stderr", .string options.stderr.name),
    ("detachProcessGroup", .bool options.detachProcessGroup) ]

def defaults : Fields :=
  [ ("environment", .object []), ("environmentMode", .string "inherit"), ("stdin", .string "pipe"),
    ("stdout", .string "pipe"), ("stderr", .string "pipe"), ("detachProcessGroup", .bool true) ]

/-- The objects that write launch options: the variables stand in any order, and any members that
have their default as their value may be left out. -/
def Writes (options : LaunchOptions) (d : Datum) : Prop :=
  ∃ bindings left, bindings.Perm options.environment.entries ∧
    Omits defaults (options.members bindings) left ∧ d = .object left

theorem writes_toDatum (options : LaunchOptions) : options.Writes options.toDatum :=
  ⟨options.environment.entries, _, .refl _, .refl _ _, rfl⟩

def allMembers (options : LaunchOptions) (bindings : List (String × String)) : Fields :=
  [ ("workingDirectory", Decode.orNull options.workingDirectory),
    ("environment", Environment.written bindings),
    ("environmentMode", .string options.environmentBase.name),
    ("stdin", .string options.stdin.name),
    ("stdout", .string options.stdout.name),
    ("stderr", .string options.stderr.name),
    ("detachProcessGroup", .bool options.detachProcessGroup) ]

def allDefaults : Fields := defaults ++ [("workingDirectory", .null)]

theorem omits_members (options : LaunchOptions) (bindings : List (String × String)) :
    Omits [("workingDirectory", .null)] (options.allMembers bindings)
      (options.members bindings) := by
  obtain ⟨workingDirectory, environment, base, stdin, stdout, stderr, detach⟩ := options
  cases workingDirectory with
  | none => exact .drop List.mem_cons_self (.refl _ _)
  | some path => exact .refl _ _

theorem fits_allMembers (delivery : Delivery) {options : LaunchOptions}
    {bindings : List (String × String)} (h : bindings.Perm options.environment.entries) :
    Fits delivery rules (options.allMembers bindings) := by
  have hconnection (name : String) (connection : Connection) :=
    check_optional name (Connection.decode_name delivery connection)
  refine .cons ⟨rfl, check_optional _ (Decode.nullable_path delivery _)⟩
    (.cons ⟨rfl, check_optional _ (Environment.decode_written delivery h)⟩
    (.cons ⟨rfl, check_optional _ (EnvironmentBase.decode_name delivery _)⟩
    (.cons ⟨rfl, hconnection "stdin" _⟩ (.cons ⟨rfl, hconnection "stdout" _⟩
    (.cons ⟨rfl, hconnection "stderr" _⟩ (.cons ⟨rfl, rfl⟩ .nil))))))

/-- Launch options are decoded from any object that writes them. -/
theorem decode_of_writes (delivery : Delivery) {options : LaunchOptions} {d : Datum}
    (h : options.Writes d) : decode delivery d = .ok options := by
  obtain ⟨bindings, left, hperm, homits, rfl⟩ := h
  have hleft : Omits allDefaults (options.allMembers bindings) left :=
    (options.omits_members bindings).trans homits
  have hfits := fits_allMembers delivery hperm
  have hrules : (rules.map (·.name)).Nodup := by decide
  have hnodup : ((options.allMembers bindings).map (·.1)).Nodup := by
    rwa [Fields.names_of_fits hfits]
  have hread : Fields.read "struct ProcessOptions" rules delivery (.object left) = .ok left := by
    refine Fields.read_of_omits _ hfits hrules hleft ?_
    intro member _ rule hrule hrequired
    have hnone : ∀ rule ∈ rules, rule.required = false := by decide
    rw [hnone rule hrule] at hrequired
    cases hrequired
  have hdirectory : left.getD delivery "workingDirectory" (Decode.nullable Decode.path) none =
      .ok options.workingDirectory :=
    hleft.getD hnodup (by simp [allMembers]) (Decode.nullable_path delivery _) fun hmem =>
      Decode.orNull_eq_null (by simpa [allDefaults, defaults] using hmem)
  have henvironment : left.getD delivery "environment" Environment.decode .empty =
      .ok options.environment :=
    hleft.getD hnodup (by simp [allMembers]) (Environment.decode_written delivery hperm) fun hmem =>
      Environment.eq_empty_of_perm hperm (by simpa [allDefaults, defaults] using hmem)
  have hbase : left.getD delivery "environmentMode" EnvironmentBase.decode .inherit =
      .ok options.environmentBase :=
    hleft.getD hnodup (by simp [allMembers]) (EnvironmentBase.decode_name delivery _) fun hmem =>
      EnvironmentBase.eq_inherit (by simpa [allDefaults, defaults] using hmem)
  have hstdin : left.getD delivery "stdin" Connection.decode .pipe = .ok options.stdin :=
    hleft.getD hnodup (by simp [allMembers]) (Connection.decode_name delivery _) fun hmem =>
      Connection.eq_pipe (by simpa [allDefaults, defaults] using hmem)
  have hstdout : left.getD delivery "stdout" Connection.decode .pipe = .ok options.stdout :=
    hleft.getD hnodup (by simp [allMembers]) (Connection.decode_name delivery _) fun hmem =>
      Connection.eq_pipe (by simpa [allDefaults, defaults] using hmem)
  have hstderr : left.getD delivery "stderr" Connection.decode .pipe = .ok options.stderr :=
    hleft.getD hnodup (by simp [allMembers]) (Connection.decode_name delivery _) fun hmem =>
      Connection.eq_pipe (by simpa [allDefaults, defaults] using hmem)
  have hdetach : left.getD delivery "detachProcessGroup" Decode.bool true =
      .ok options.detachProcessGroup :=
    hleft.getD hnodup (by simp [allMembers]) (Decode.bool_bool delivery _) fun hmem => by
      simpa [allDefaults, defaults] using hmem
  simp only [decode, hread, hdirectory, henvironment, hbase, hstdin, hstdout, hstderr, hdetach,
    bind, Except.bind]
  rfl

theorem plain_of_writes {options : LaunchOptions} {d : Datum} (h : options.Writes d) :
    Json.Plain Json.maxDepth d := by
  obtain ⟨bindings, left, -, homits, rfl⟩ := h
  refine ⟨by decide, ((options.omits_members bindings).trans homits).plain ?_⟩
  exact ⟨Decode.plain_orNull _ _, Environment.plain_written _ _, trivial, trivial, trivial, trivial,
    trivial, trivial⟩

end LaunchOptions

/-! ### Programs -/

namespace Program

def members (program : Program) (bindings : List (String × String)) : Fields :=
  [ ("name", .string program.name),
    ("command", .string program.command),
    ("args", .array (program.args.map .string)),
    ("environment", Environment.written bindings) ] ++
  (program.workingDirectory.map fun path => ("workingDirectory", Datum.string path)).toList ++
  (program.input.map fun text => ("input", Datum.string text)).toList ++
  [("shell", .bool program.shell)]

def defaults : Fields :=
  [("args", .array []), ("environment", .object []), ("shell", .bool false)]

def Writes (program : Program) (d : Datum) : Prop :=
  ∃ bindings left, bindings.Perm program.environment.entries ∧
    Omits defaults (program.members bindings) left ∧ d = .object left

theorem writes_toDatum (program : Program) : program.Writes program.toDatum :=
  ⟨program.environment.entries, _, .refl _, .refl _ _, rfl⟩

def allMembers (program : Program) (bindings : List (String × String)) : Fields :=
  [ ("name", .string program.name),
    ("command", .string program.command),
    ("args", .array (program.args.map .string)),
    ("environment", Environment.written bindings),
    ("workingDirectory", Decode.orNull program.workingDirectory),
    ("input", Decode.orNull program.input),
    ("shell", .bool program.shell) ]

def allDefaults : Fields := defaults ++ [("workingDirectory", .null), ("input", .null)]

theorem omits_members (program : Program) (bindings : List (String × String)) :
    Omits [("workingDirectory", .null), ("input", .null)] (program.allMembers bindings)
      (program.members bindings) := by
  have hrest : Omits [("workingDirectory", .null), ("input", .null)]
      [ ("workingDirectory", Decode.orNull program.workingDirectory),
        ("input", Decode.orNull program.input), ("shell", .bool program.shell) ]
      ((program.workingDirectory.map fun path => ("workingDirectory", Datum.string path)).toList ++
        ((program.input.map fun text => ("input", Datum.string text)).toList ++
          [("shell", .bool program.shell)])) := by
    have hdirectory : ("workingDirectory", Datum.null) ∈
        [("workingDirectory", Datum.null), ("input", .null)] := List.mem_cons_self
    have hinput : ("input", Datum.null) ∈
        [("workingDirectory", Datum.null), ("input", .null)] := List.mem_of_mem_getLast? rfl
    cases program.workingDirectory <;> cases program.input
    · exact .drop hdirectory (.drop hinput (.refl _ _))
    · exact .drop hdirectory (.refl _ _)
    · exact .keep _ (.drop hinput (.refl _ _))
    · exact .refl _ _
  rw [members, List.append_assoc, List.append_assoc]
  exact .keep _ (.keep _ (.keep _ (.keep _ hrest)))

theorem fits_allMembers (delivery : Delivery) {program : Program}
    {bindings : List (String × String)} (h : bindings.Perm program.environment.entries) :
    Fits delivery rules (program.allMembers bindings) :=
  .cons ⟨rfl, rfl⟩ (.cons ⟨rfl, rfl⟩
    (.cons ⟨rfl, check_optional _ (Decode.list_text delivery _)⟩
    (.cons ⟨rfl, check_optional _ (Environment.decode_written delivery h)⟩
    (.cons ⟨rfl, check_optional _ (Decode.nullable_path delivery _)⟩
    (.cons ⟨rfl, check_optional _ (Decode.nullable_text delivery _)⟩ (.cons ⟨rfl, rfl⟩ .nil))))))

/-- A program is decoded from any object that writes it. -/
theorem decode_of_writes (delivery : Delivery) {program : Program} {d : Datum}
    (h : program.Writes d) : decode delivery d = .ok program := by
  obtain ⟨bindings, left, hperm, homits, rfl⟩ := h
  have hleft : Omits allDefaults (program.allMembers bindings) left :=
    (program.omits_members bindings).trans homits
  have hfits := fits_allMembers delivery hperm
  have hrules : (rules.map (·.name)).Nodup := by decide
  have hnodup : ((program.allMembers bindings).map (·.1)).Nodup := by
    rwa [Fields.names_of_fits hfits]
  have hread : Fields.read "struct ProgramSpec" rules delivery (.object left) = .ok left := by
    refine Fields.read_of_omits _ hfits hrules hleft ?_
    intro member hmember rule hrule hrequired
    -- Only the name and the command must be there, and they have no default.
    have hneeded : ∀ rule ∈ rules, rule.required → rule.name ∉ allDefaults.map (·.1) := by decide
    rintro hsame
    exact hneeded rule hrule hrequired (hsame ▸ List.mem_map_of_mem hmember)
  have hname : left.get delivery "name" Decode.text = .ok program.name :=
    hleft.get hnodup (by simp [allMembers]) (Decode.text_string delivery _)
      (by simp [allDefaults, defaults])
  have hcommand : left.get delivery "command" Decode.text = .ok program.command :=
    hleft.get hnodup (by simp [allMembers]) (Decode.text_string delivery _)
      (by simp [allDefaults, defaults])
  have hargs : left.getD delivery "args" (Decode.list Decode.text) [] = .ok program.args :=
    hleft.getD hnodup (by simp [allMembers]) (Decode.list_text delivery _) fun hmem => by
      simpa [allDefaults, defaults] using hmem
  have henvironment : left.getD delivery "environment" Environment.decode .empty =
      .ok program.environment :=
    hleft.getD hnodup (by simp [allMembers]) (Environment.decode_written delivery hperm) fun hmem =>
      Environment.eq_empty_of_perm hperm (by simpa [allDefaults, defaults] using hmem)
  have hdirectory : left.getD delivery "workingDirectory" (Decode.nullable Decode.path) none =
      .ok program.workingDirectory :=
    hleft.getD hnodup (by simp [allMembers]) (Decode.nullable_path delivery _) fun hmem =>
      Decode.orNull_eq_null (by simpa [allDefaults, defaults] using hmem)
  have hinput : left.getD delivery "input" (Decode.nullable Decode.text) none =
      .ok program.input :=
    hleft.getD hnodup (by simp [allMembers]) (Decode.nullable_text delivery _) fun hmem =>
      Decode.orNull_eq_null (by simpa [allDefaults, defaults] using hmem)
  have hshell : left.getD delivery "shell" Decode.bool false = .ok program.shell :=
    hleft.getD hnodup (by simp [allMembers]) (Decode.bool_bool delivery _) fun hmem => by
      simpa [allDefaults, defaults] using hmem
  simp only [decode, hread, hname, hcommand, hargs, henvironment, hdirectory, hinput, hshell,
    bind, Except.bind]
  rfl

theorem plain_of_writes {program : Program} {d : Datum} (h : program.Writes d) :
    Json.Plain Json.maxDepth d := by
  obtain ⟨bindings, left, -, homits, rfl⟩ := h
  refine ⟨by decide, ((program.omits_members bindings).trans homits).plain ?_⟩
  exact ⟨trivial, trivial, ⟨by decide, Event.plainItems_text _ _⟩, Environment.plain_written _ _,
    Decode.plain_orNull _ _, Decode.plain_orNull _ _, trivial, trivial⟩

end Program

/-! ### Results and exit statuses -/

namespace RunResult

theorem decode_toDatum (delivery : Delivery) (result : RunResult) :
    decode delivery result.toDatum = .ok result := by
  have hint := Decode.int32_toInt delivery result.exitStatus
  let members : Fields := [ ("exitStatus", .int result.exitStatus.toInt),
    ("stdOut", .string result.stdout), ("stdErr", .string result.stderr) ]
  have hfits : Fits delivery rules members :=
    .cons ⟨rfl, check_needed _ hint⟩ (.cons ⟨rfl, rfl⟩ (.cons ⟨rfl, rfl⟩ .nil))
  have hread : Fields.read "struct ProcessResult" rules delivery result.toDatum = .ok members :=
    Fields.read_of_fits _ hfits (by decide)
  have hstatus : members.get delivery "exitStatus" Decode.int32 = .ok result.exitStatus.toInt :=
    Fields.get_of_lookup List.lookup_cons_self hint
  simp only [decode, hread, hstatus, bind, Except.bind]
  show Except.ok (⟨Int32.ofInt result.exitStatus.toInt, _, _⟩ : RunResult) = _
  rw [Int32.ofInt_toInt]

theorem plain_toDatum (result : RunResult) : Json.Plain Json.maxDepth result.toDatum :=
  ⟨by decide, Event.exact_int32 _, trivial, trivial, trivial⟩

end RunResult

theorem ExitStatus.plain_toDatum (status : ExitStatus) :
    Json.Plain Json.maxDepth status.toDatum := by
  cases status with
  | exited code => exact ⟨by decide, trivial, Event.exact_int32 code, trivial⟩
  | signaled signal => exact ⟨by decide, trivial, Event.exact_int32 signal, trivial⟩

/-! ### The texts that write them -/

/-- **What is configured is decoded from every text that writes it**: launch options, programs,
results and exit statuses are decoded from their document forms, and launch options and programs
also if the variables stand in another order and any members with a default value are left out. -/
theorem decode_of_written :
    (∀ options : LaunchOptions, options.Writes options.toDatum ∧ ∀ d, options.Writes d →
      Json.decode LaunchOptions.decode (Json.render d) = .ok options) ∧
    (∀ program : Program, program.Writes program.toDatum ∧ ∀ d, program.Writes d →
      Json.decode Program.decode (Json.render d) = .ok program) ∧
    (∀ result : RunResult,
      Json.decode RunResult.decode (Json.render result.toDatum) = .ok result) ∧
    ∀ status : ExitStatus,
      Json.decode ExitStatus.decode (Json.render status.toDatum) = .ok status := by
  refine ⟨fun options => ⟨options.writes_toDatum, ?_⟩,
    fun program => ⟨program.writes_toDatum, ?_⟩, ?_, ?_⟩
  · intro d h
    exact Json.decode_render (LaunchOptions.plain_of_writes h)
      (LaunchOptions.decode_of_writes .streamed h)
  · intro d h
    exact Json.decode_render (Program.plain_of_writes h) (Program.decode_of_writes .streamed h)
  · intro result
    exact Json.decode_render result.plain_toDatum (result.decode_toDatum .streamed)
  · intro status
    exact Json.decode_render status.plain_toDatum (status.decode_toDatum .streamed)

/-- A program with two variables, which stand in the other order, and without its arguments. -/
theorem decode_of_written_swapped :
    let program : Program :=
      { name := "show", command := "env", environment := .ofList [("A", "1"), ("B", "\"")] }
    let d : Datum := .object
      [ ("name", .string "show"), ("command", .string "env"),
        ("environment", .object [("B", .string "\""), ("A", .string "1")]),
        ("shell", .bool false) ]
    program.Writes d ∧ Json.decode Program.decode (Json.render d) = .ok program := by
  intro program d
  have hwrites : program.Writes d := by
    refine ⟨[("B", "\""), ("A", "1")], _, ?_, ?_, rfl⟩
    · have hentries : program.environment.entries = [("A", "1"), ("B", "\"")] := by cbv
      rw [hentries]
      exact .swap _ _ _
    · exact .keep _ (.keep _ (.drop (by simp [Program.defaults, program]) (.refl _ _)))
  exact ⟨hwrites, (decode_of_written.2.1 program).2 d hwrites⟩

end Chaperone
