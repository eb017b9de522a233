import Chaperone.Launch.Resolve
import Mathlib.Data.List.Nodup

/-!
# What a search for an executable comes to

A program's name stands for some paths, which are tried in order (`Launch.tries`).  The first one
with an executable file wins, however many before it are of no use; if there is none, the first one
with anything else is reported, however many come after it; and if there is nothing at all, nothing
is found.  `resolve_eq_ok_iff` and its siblings say so, one for each outcome.

A name without a slash is looked up in the directories of the search path that the program itself
will have (`Launch.resolve_of_bare`).  That path is read off the launcher's variables and the
options before there is an environment for the program; `Launch.lookup_environmentBlock` says that
it agrees with the environment that is made then.
-/

namespace Chaperone

def IsFirst {α : Type} (P : α → Prop) (all : List α) (x : α) : Prop :=
  P x ∧ ∃ before after, all = before ++ x :: after ∧ ∀ y ∈ before, ¬P y

theorem IsFirst.mem {α : Type} {P : α → Prop} {all : List α} {x : α} (h : IsFirst P all x) :
    x ∈ all := by
  obtain ⟨-, before, after, rfl, -⟩ := h
  exact List.mem_append_right _ List.mem_cons_self

/-- What divides a list is in none of the pieces. -/
theorem not_mem_of_mem_splitOn {α : Type} [BEq α] [LawfulBEq α] {a : α} {all piece : List α}
    (h : piece ∈ all.splitOn a) : a ∉ piece := by
  induction all generalizing piece with
  | nil =>
    obtain rfl := List.mem_singleton.mp h
    exact List.not_mem_nil
  | cons x rest ih =>
    rw [List.splitOn_cons_eq_if_modifyHead] at h
    split at h
    · rcases List.mem_cons.mp h with rfl | h
      · exact List.not_mem_nil
      · exact ih h
    · next hne =>
      cases hpieces : rest.splitOn a with
      | nil => exact absurd hpieces (List.splitOnP_ne_nil _ _)
      | cons first others =>
        rw [hpieces] at h ih
        rcases List.mem_cons.mp h with rfl | h
        · have hfirst := ih List.mem_cons_self
          simpa [hfirst] using fun heq => hne (beq_iff_eq.mpr heq.symm)
        · exact ih (List.mem_cons_of_mem _ h)

/-! ### Environments -/

theorem lookup_cons_eq_ite (name value other : String) (rest : List (String × String)) :
    ((name, value) :: rest).lookup other = if other = name then some value else rest.lookup other := by
  by_cases h : other = name
  · simp [h]
  · rw [if_neg h, List.lookup_cons, beq_false_of_ne h]

/-- A new entry is the one that is found under its name, and hides no other one. -/
theorem lookup_insertEntry (name value other : String) (entries : List (String × String)) :
    (insertEntry name value entries).lookup other =
      if other = name then some value else entries.lookup other := by
  induction entries with
  | nil => rw [insertEntry, lookup_cons_eq_ite]
  | cons head rest ih =>
    obtain ⟨n, v⟩ := head
    rw [insertEntry]
    split
    · rw [lookup_cons_eq_ite]
    · split
      · next heq =>
        subst heq
        by_cases h : other = name <;> simp only [lookup_cons_eq_ite, h, if_true, if_false]
      · next hne =>
        by_cases h : other = n
        · subst h
          simp only [lookup_cons_eq_ite, if_true, if_neg (Ne.symm hne)]
        · simp only [lookup_cons_eq_ite, if_neg h, ih]

/-- Of entries that are put in one after another, the last one of a name counts. -/
theorem Environment.get?_foldl_insert (environment : Environment)
    (entries : List (String × String)) (name : String) :
    (entries.foldl (fun all (name, value) => all.insert name value) environment).get? name =
      (entries.reverse.lookup name).or (environment.get? name) := by
  induction entries generalizing environment with
  | nil => rfl
  | cons head rest ih =>
    obtain ⟨n, v⟩ := head
    have hput : (environment.insert n v).get? name =
        if name = n then some v else environment.get? name := lookup_insertEntry ..
    rw [List.foldl_cons, ih, hput, List.reverse_cons, List.lookup_append, Option.or_assoc,
      lookup_cons_eq_ite]
    by_cases h : name = n <;> simp [h]

/-- If a name has one text at most it does not matter from which end one looks for it. -/
theorem lookup_reverse {entries : List (String × String)} {name : String}
    (h : (entries.map Prod.fst).count name ≤ 1) :
    entries.reverse.lookup name = entries.lookup name := by
  induction entries with
  | nil => rfl
  | cons head rest ih =>
    obtain ⟨n, v⟩ := head
    rw [List.map_cons, List.count_cons] at h
    rw [List.reverse_cons, List.lookup_append, lookup_cons_eq_ite, lookup_cons_eq_ite]
    by_cases heq : name = n
    · subst heq
      have hcount : (rest.map Prod.fst).count name = 0 := by simpa using h
      have hrest : rest.reverse.lookup name = none := by
        refine List.lookup_eq_none_iff.mpr fun entry hentry => bne_iff_ne.mpr fun heq => ?_
        rw [heq] at hcount
        exact List.count_eq_zero.mp hcount
          (List.mem_map_of_mem (List.mem_reverse.mp hentry))
      simp [hrest]
    · rw [if_neg heq, if_neg heq, ih (by omega)]
      exact Option.or_none

/-- An environment that is put into another one goes before it. -/
theorem Environment.get?_foldl_entries (environment other : Environment) (name : String) :
    (environment.entries.foldl (fun all (name, value) => all.insert name value) other).get? name =
      (environment.get? name).or (other.get? name) := by
  have hone : (environment.entries.map Prod.fst).count name ≤ 1 := by
    refine List.nodup_iff_count_le_one.mp (List.pairwise_map.mpr ?_) name
    refine environment.sorted.imp fun {a b} hlt heq => ?_
    rw [heq] at hlt
    exact String.lt_irrefl _ hlt
  rw [get?_foldl_insert, lookup_reverse hone]
  rfl

namespace Launch

variable {view : FileView} {options : LaunchOptions} {executable : String}

def inherited (view : FileView) (options : LaunchOptions) (name : String) : Option String :=
  match options.environmentBase with
  | .inherit => view.vars.lookup name
  | .clear => none

/-- In the environment that a program will have, a name has the text that the options give it, else
the launcher's text unless the base is empty. -/
theorem lookup_environmentBlock {name : String}
    (hvars : (view.vars.map Prod.fst).count name ≤ 1) :
    (environmentBlock view options).lookup name =
      (options.environment.get? name).or (inherited view options name) := by
  cases hbase : options.environmentBase with
  | clear => simp [environmentBlock, inherited, hbase, Environment.get?]
  | inherit =>
    simp only [environmentBlock, inherited, hbase]
    split
    · next hempty =>
      rw [Environment.isEmpty, List.isEmpty_iff] at hempty
      simp [Environment.get?, hempty]
    · have hlauncher : (Environment.ofList view.vars).get? name = view.vars.lookup name := by
        rw [Environment.ofList, Environment.get?_foldl_insert, lookup_reverse hvars]
        exact Option.or_none
      rw [← hlauncher]
      exact Environment.get?_foldl_entries ..

/-! ### The paths that are tried -/

/-- The directory in which a program starts, if it is not the launcher's; a relative one is taken
from the launcher's. -/
def home (view : FileView) (options : LaunchOptions) : Except SystemError (Option String) :=
  match options.workingDirectory with
  | none => .ok none
  | some directory =>
    if Path.isAbsolute directory then .ok (some directory)
    else view.currentDirectory.map fun current => some (Path.join current directory)

/-- What a path means to a program that starts in `home`. -/
def seenFrom (home : Option String) (path : String) : String :=
  match home with
  | some home => Path.join home path
  | none => path

/-- The directories of a search path, in order; the entry without a name is the one where the
program starts. -/
def directories (searchPath : String) : List String :=
  (entries searchPath).map fun entry => if entry = "" then "." else entry

def tries (view : FileView) (executable : String) (options : LaunchOptions) :
    Except SystemError (List String) :=
  if executable = "" then .ok []
  else (home view options).map fun home =>
    if executable.contains '/' then [seenFrom home executable]
    else candidates (searchPath view options) home executable

/-- A name with a slash stands for one path. -/
theorem tries_of_slash {start : Option String} (hslash : '/' ∈ executable.toList)
    (hstart : home view options = .ok start) :
    tries view executable options = .ok [seenFrom start executable] := by
  have hname : executable ≠ "" := by
    rintro rfl
    cases hslash
  rw [tries, if_neg hname, hstart, String.contains_char_eq, decide_eq_true hslash]
  rfl

/-- A search path with its entries: what stands between the colons, of which there may be none. -/
structure Lists (searchPath : String) (entries : List String) : Prop where
  ne_nil : entries ≠ []
  intercalate : ":".intercalate entries = searchPath
  not_mem : ∀ entry ∈ entries, ':' ∉ entry.toList

theorem lists_entries (searchPath : String) : Lists searchPath (entries searchPath) where
  ne_nil := by
    rw [entries, ne_eq, List.map_eq_nil_iff]
    exact List.splitOnP_ne_nil _ _
  intercalate := by
    have hpieces : (entries searchPath).map String.toList = searchPath.toList.splitOn ':' := by
      simp [entries]
    apply String.toList_injective
    rw [String.toList_intercalate, hpieces]
    exact List.intercalate_splitOn ':'
  not_mem := by
    intro entry hentry
    obtain ⟨piece, hpiece, rfl⟩ := List.mem_map.mp hentry
    rw [String.toList_ofList]
    exact not_mem_of_mem_splitOn hpiece

theorem base_eq : base view executable options =
    (home view options).mapError (.osFailure executable) := by
  rw [base, home]
  cases options.workingDirectory with
  | none => rfl
  | some directory =>
    dsimp only
    split
    · rfl
    · cases view.currentDirectory <;> rfl

/-- What a search makes of the paths. -/
theorem resolve_eq : resolve view executable options =
    match tries view executable options with
    | .error cause => .error (.osFailure executable cause)
    | .ok paths => firstExecutable view executable none paths := by
  rw [resolve, tries]
  by_cases hname : executable = ""
  · simp [hname, firstExecutable]
  · rw [if_neg (by simpa using hname), if_neg hname, base_eq]
    cases home view options with
    | error cause => rfl
    | ok home =>
      simp only [Except.mapError, Except.map]
      by_cases hslash : executable.contains '/'
      · -- the only path is looked at as the first of a list would be
        cases home with
        | none =>
          cases hcandidate : view.candidate executable <;>
            simp [bind, Except.bind, hslash, seenFrom, firstExecutable, hcandidate] <;> rfl
        | some start =>
          cases hcandidate : view.candidate (Path.join start executable) <;>
            simp [bind, Except.bind, hslash, seenFrom, firstExecutable, hcandidate] <;> rfl
      · simp only [hslash]
        rfl

/-! ### The outcomes of a search -/

variable {name path : String} {paths : List String} {cause : SystemError}

theorem find?_candidate_eq_some_iff {kind : Candidate} :
    (paths.find? fun path => view.candidate path == kind) = some path ↔
      IsFirst (view.candidate · = kind) paths path := by
  simp [List.find?_eq_some_iff_append, IsFirst]

theorem find?_candidate_eq_none_iff {kind : Candidate} :
    (paths.find? fun path => view.candidate path == kind) = none ↔
      ∀ path ∈ paths, view.candidate path ≠ kind := by
  simp

/-- The paths are gone through once; it comes to the same to look for an executable first and for
anything else after that. -/
theorem firstExecutable_eq (view : FileView) (name : String) (denied : Option String)
    (paths : List String) : firstExecutable view name denied paths =
      match paths.find? fun path => view.candidate path == .executable with
      | some path => .ok path
      | none =>
        match denied.or (paths.find? fun path => view.candidate path == .notExecutable) with
        | some path => .error (.permissionDenied path)
        | none => .error (.notFound name) := by
  induction paths generalizing denied with
  | nil => cases denied <;> rfl
  | cons path rest ih =>
    rw [firstExecutable, List.find?_cons, List.find?_cons]
    cases view.candidate path with
    | executable => rfl
    | notExecutable =>
      rw [ih, Option.or_assoc]
      rfl
    | missing => exact ih denied

theorem firstExecutable_eq_ok_iff : firstExecutable view name none paths = .ok path ↔
    IsFirst (view.candidate · = .executable) paths path := by
  rw [firstExecutable_eq, Option.none_or, ← find?_candidate_eq_some_iff]
  split
  · simp [*]
  · split <;> simp [*]

theorem firstExecutable_eq_permissionDenied_iff :
    firstExecutable view name none paths = .error (.permissionDenied path) ↔
      (∀ other ∈ paths, view.candidate other ≠ .executable) ∧
        IsFirst (view.candidate · = .notExecutable) paths path := by
  rw [firstExecutable_eq, Option.none_or, ← find?_candidate_eq_some_iff, ← find?_candidate_eq_none_iff]
  split
  · simp [*]
  · split <;> simp [*]

theorem firstExecutable_eq_notFound_iff {other : String} :
    firstExecutable view name none paths = .error (.notFound other) ↔
      other = name ∧ ∀ path ∈ paths, view.candidate path = .missing := by
  have hmissing : (∀ path ∈ paths, view.candidate path = .missing) ↔
      (∀ path ∈ paths, view.candidate path ≠ .executable) ∧
        ∀ path ∈ paths, view.candidate path ≠ .notExecutable := by
    rw [← forall₂_and]
    refine forall₂_congr fun path _ => ?_
    cases view.candidate path <;> simp
  rw [firstExecutable_eq, Option.none_or, hmissing, ← find?_candidate_eq_none_iff, ← find?_candidate_eq_none_iff]
  split
  · simp [*]
  · split <;> simp [*, eq_comm]

theorem firstExecutable_ne_osFailure {other : String} :
    firstExecutable view name none paths ≠ .error (.osFailure other cause) := by
  rw [firstExecutable_eq]
  split
  · nofun
  · split <;> nofun

/-- An executable is found at the first path with one. -/
theorem resolve_eq_ok_iff : resolve view executable options = .ok path ↔
    ∃ paths, tries view executable options = .ok paths ∧
      IsFirst (view.candidate · = .executable) paths path := by
  rw [resolve_eq]
  cases tries view executable options <;> simp [firstExecutable_eq_ok_iff]

/-- If there is none, permission was denied for the first thing that is there. -/
theorem resolve_eq_permissionDenied_iff :
    resolve view executable options = .error (.permissionDenied path) ↔
      ∃ paths, tries view executable options = .ok paths ∧
        (∀ other ∈ paths, view.candidate other ≠ .executable) ∧
          IsFirst (view.candidate · = .notExecutable) paths path := by
  rw [resolve_eq]
  cases tries view executable options <;> simp [firstExecutable_eq_permissionDenied_iff]

/-- If nothing is there nothing is found. -/
theorem resolve_eq_notFound_iff : resolve view executable options = .error (.notFound name) ↔
    name = executable ∧ ∃ paths, tries view executable options = .ok paths ∧
      ∀ path ∈ paths, view.candidate path = .missing := by
  rw [resolve_eq]
  cases tries view executable options <;> simp [firstExecutable_eq_notFound_iff]

/-- Nothing is tried if it cannot be told where the program starts. -/
theorem resolve_eq_osFailure_iff :
    resolve view executable options = .error (.osFailure name cause) ↔
      name = executable ∧ tries view executable options = .error cause := by
  rw [resolve_eq]
  cases tries view executable options with
  | error cause => simp [eq_comm]
  | ok paths => simpa using firstExecutable_ne_osFailure

/-! ### Names without a slash -/

/-- The search path is that of the options, else that of the launcher. -/
theorem searchPath_eq : searchPath view options =
    ((options.environment.get? "PATH").or (inherited view options "PATH")).getD
      defaultSearchPath := by
  rw [searchPath, inherited]
  cases options.environment.get? "PATH" with
  | some path => rfl
  | none => cases options.environmentBase <;> rfl

theorem candidates_eq (searchPath : String) (home : Option String) (name : String) :
    candidates searchPath home name =
      (directories searchPath).map fun directory => Path.join (seenFrom home directory) name := by
  rw [candidates, directories, List.map_map]
  refine List.map_congr_left fun entry _ => ?_
  by_cases h : entry = "" <;> cases home <;> simp [entryDirectory, seenFrom, h]

/-- **How a name without a slash is looked up.**  The directories of the search path that the
program itself will have are tried in order, relative ones from where it starts.  The first
executable file wins; if there is none, permission was denied for the first thing of that name; and
if there is nothing of that name, nothing is found. -/
theorem resolve_of_bare (view : FileView) (options : LaunchOptions) (name : String)
    (hname : name ≠ "") (hbare : '/' ∉ name.toList) :
    let own := (options.environment.get? "PATH").or (inherited view options "PATH")
    let searchPath := own.getD defaultSearchPath
    let result := resolve view name options
    ((view.vars.map Prod.fst).count "PATH" ≤ 1 →
      (environmentBlock view options).lookup "PATH" = own) ∧
    Lists searchPath (entries searchPath) ∧
    (∀ cause, home view options = .error cause → result = .error (.osFailure name cause)) ∧
    ∀ start, home view options = .ok start →
      let paths := (directories searchPath).map fun directory =>
        Path.join (seenFrom start directory) name
      (∀ path, result = .ok path ↔ IsFirst (view.candidate · = .executable) paths path) ∧
      (∀ path, result = .error (.permissionDenied path) ↔
        (∀ other ∈ paths, view.candidate other ≠ .executable) ∧
          IsFirst (view.candidate · = .notExecutable) paths path) ∧
      (result = .error (.notFound name) ↔ ∀ path ∈ paths, view.candidate path = .missing) := by
  intro own searchPath result
  have htries : tries view name options = (home view options).map fun start =>
      (directories searchPath).map fun directory => Path.join (seenFrom start directory) name := by
    rw [tries, if_neg hname]
    refine congrArg (Except.map · _) (funext fun start => ?_)
    rw [String.contains_char_eq, decide_eq_false hbare, searchPath_eq, candidates_eq]
    rfl
  refine ⟨fun hvars => lookup_environmentBlock hvars, lists_entries searchPath,
    fun cause hcause => ?_, fun start hstart => ?_⟩
  · rw [resolve_eq_osFailure_iff, htries, hcause]
    exact ⟨rfl, rfl⟩
  · rw [hstart] at htries
    refine ⟨fun path => ?_, fun path => ?_, ?_⟩
    · rw [resolve_eq_ok_iff, htries]
      simp [Except.map]
    · rw [resolve_eq_permissionDenied_iff, htries]
      simp [Except.map]
    · rw [resolve_eq_notFound_iff, htries]
      simp [Except.map]

def shop : FileView where
  candidate path :=
    if path = "/shop/bin/tool" then .notExecutable
    else if path = "/shop/./tool" ∨ path = "/opt/tool" then .executable
    else .missing
  isDirectory path := path = "shop"
  currentDirectory := .ok "/"
  vars := [("PATH", "/usr/bin")]

/-- The tool that may not be executed does not hide the next one, which is where the program
starts. -/
theorem resolve_of_bare_shop :
    let options : LaunchOptions :=
      { workingDirectory := some "shop", environment := .ofList [("PATH", "lib:bin::/opt")] }
    "tool" ≠ "" ∧ '/' ∉ "tool".toList ∧ resolve shop "tool" options = .ok "/shop/./tool" := by
  intro options
  have hname : "tool" ≠ "" := by decide
  have hbare : '/' ∉ "tool".toList := by decide
  have hown : (options.environment.get? "PATH").or (inherited shop options "PATH") =
      some "lib:bin::/opt" := by decide
  have hdirectories : directories "lib:bin::/opt" = ["lib", "bin", ".", "/opt"] := by decide
  obtain ⟨-, -, -, hsearch⟩ := resolve_of_bare shop options "tool" hname hbare
  rw [hown] at hsearch
  have hfirst := (hsearch (some "/shop") (by decide +kernel)).1 "/shop/./tool"
  rw [Option.getD_some, hdirectories] at hfirst
  refine ⟨hname, hbare, hfirst.mpr ⟨by decide, ["/shop/lib/tool", "/shop/bin/tool"], ["/opt/tool"],
    by decide +kernel, by decide⟩⟩

end Launch

end Chaperone
