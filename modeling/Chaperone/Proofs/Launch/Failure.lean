import Chaperone.Launch.Start
import Chaperone.Proofs.Child.Rest
import Chaperone.Proofs.Launch.Search

/-!
# Why a program is not started

A launch can fail in three places: the working directory is not there, the search comes to nothing,
or the system does not start the file that was found.  What is reported then is settled by
`failure_of_spawn`, with one equivalence for each kind of failure.

That the system knows no such file (`Errno.noEntry`) is reported as a program that was not found,
although the search has just found it: it may be the interpreter of the file that is not there.
-/

namespace Chaperone

variable {ω : Type}

/-! ### What the system answers -/

/-- What comes of starting the file at a path; a text with a zero byte never gets to the system. -/
def execute (host : Host ω) (executable path : String) (args : List String)
    (options : LaunchOptions) (w : ω) : Except SystemError Launched × ω :=
  let request := LaunchRequest.of (host.view w) path executable args options
  if request.isPlain then host.start request w else (.error zeroByte, w)

namespace SpawnError

variable {executable path name other : String} {cause reported : SystemError}

theorem ofSystem_eq (executable path : String) (cause : SystemError) :
    ofSystem executable path cause =
      if cause = .os Errno.noEntry then .notFound executable
      else if cause = .os Errno.accessDenied ∨ cause = .os Errno.notPermitted then
        .permissionDenied path
      else .osFailure executable cause := by
  simp only [ofSystem, Bool.or_eq_true, decide_eq_true_iff]

theorem ofSystem_eq_notFound_iff : ofSystem executable path cause = .notFound name ↔
    name = executable ∧ cause = .os Errno.noEntry := by
  rw [ofSystem_eq]
  split
  · next hgone => simp [hgone, eq_comm]
  · next hknown => split <;> simp [hknown]

theorem ofSystem_eq_permissionDenied_iff :
    ofSystem executable path cause = .permissionDenied other ↔
      other = path ∧ (cause = .os Errno.accessDenied ∨ cause = .os Errno.notPermitted) := by
  rw [ofSystem_eq]
  split
  · next hgone =>
    subst hgone
    exact ⟨nofun, fun h => absurd h.2 (by decide)⟩
  · split
    · next hdenied => simp only [permissionDenied.injEq, hdenied, and_true, eq_comm]
    · next hallowed => exact ⟨nofun, fun h => absurd h.2 hallowed⟩

theorem ofSystem_eq_osFailure_iff : ofSystem executable path cause = .osFailure name reported ↔
    name = executable ∧ cause = reported ∧ reported ≠ .os Errno.noEntry ∧
      reported ≠ .os Errno.accessDenied ∧ reported ≠ .os Errno.notPermitted := by
  rw [ofSystem_eq, ← not_or]
  split
  · next hgone =>
    refine ⟨nofun, ?_⟩
    rintro ⟨-, rfl, hknown, -⟩
    exact absurd hgone hknown
  · next hknown =>
    split
    · next hdenied =>
      refine ⟨nofun, ?_⟩
      rintro ⟨-, rfl, -, hallowed⟩
      exact absurd hdenied hallowed
    · next hallowed =>
      constructor
      · rintro ⟨⟩
        exact ⟨rfl, rfl, hknown, hallowed⟩
      · rintro ⟨rfl, rfl, -⟩
        rfl

end SpawnError

/-! ### The outcomes of a launch -/

def HasDirectory (view : FileView) (options : LaunchOptions) : Prop :=
  ∀ directory, options.workingDirectory = some directory → view.isDirectory directory = true

theorem missingDirectory?_eq_none_iff {view : FileView} {options : LaunchOptions} :
    missingDirectory? view options = none ↔ HasDirectory view options := by
  rw [missingDirectory?, HasDirectory]
  cases options.workingDirectory <;> simp

theorem missingDirectory?_eq_some_iff {view : FileView} {options : LaunchOptions}
    {directory : String} : missingDirectory? view options = some directory ↔
      options.workingDirectory = some directory ∧ view.isDirectory directory = false := by
  simp [missingDirectory?, Option.filter_eq_some_iff]

namespace Launch

variable (view : FileView) (executable : String) (options : LaunchOptions)

/-- The first of the paths that are tried at which there is an executable file. -/
def Found (path : String) : Prop :=
  ∃ paths, tries view executable options = .ok paths ∧
    IsFirst (view.candidate · = .executable) paths path

/-- The first of the paths that are tried at which there is anything, though nowhere an executable
file. -/
def Denied (path : String) : Prop :=
  ∃ paths, tries view executable options = .ok paths ∧
    (∀ other ∈ paths, view.candidate other ≠ .executable) ∧
      IsFirst (view.candidate · = .notExecutable) paths path

def Nowhere : Prop :=
  ∃ paths, tries view executable options = .ok paths ∧
    ∀ path ∈ paths, view.candidate path = .missing

end Launch

/-- How a launch goes on from the working directory to the search and to the system. -/
theorem spawn_eq (host : Host ω) (executable : String) (args : List String)
    (options : LaunchOptions) (w : ω) :
    spawn host executable args options w =
      match missingDirectory? (host.view w) options with
      | some directory => (.error (.osFailure executable
          (.refused ("working directory " ++ directory ++ " does not exist"))), w)
      | none =>
        match Launch.resolve (host.view w) executable options with
        | .error failure => (.error failure, w)
        | .ok path =>
          match execute host executable path args options w with
          | (.error cause, w) => (.error (.ofSystem executable path cause), w)
          | (.ok launched, w) =>
            (.ok {
              pid := launched.pid
              stdin := launched.stdin
              stdout := launched.stdout
              stderr := launched.stderr
              leadsGroup := options.detachProcessGroup }, w) := by
  simp only [spawn, execute]
  cases missingDirectory? (host.view w) options with
  | some directory => rfl
  | none =>
    cases Launch.resolve (host.view w) executable options with
    | error failure => rfl
    | ok path =>
      cases hplain : (LaunchRequest.of (host.view w) path executable args options).isPlain with
      | false => simp [hplain]
      | true =>
        simp only [hplain]
        rfl

variable {host : Host ω} {executable : String} {args : List String} {options : LaunchOptions}
  {w : ω}

/-- The three places in which a launch fails. -/
theorem spawn_eq_error_iff {failure : SpawnError} :
    (spawn host executable args options w).1 = .error failure ↔
      (∃ directory, missingDirectory? (host.view w) options = some directory ∧
        failure = .osFailure executable
          (.refused ("working directory " ++ directory ++ " does not exist"))) ∨
      HasDirectory (host.view w) options ∧
        (Launch.resolve (host.view w) executable options = .error failure ∨
          ∃ path cause, Launch.resolve (host.view w) executable options = .ok path ∧
            (execute host executable path args options w).1 = .error cause ∧
              SpawnError.ofSystem executable path cause = failure) := by
  rw [spawn_eq, ← missingDirectory?_eq_none_iff]
  cases missingDirectory? (host.view w) options with
  | some directory => simp [eq_comm]
  | none =>
    cases Launch.resolve (host.view w) executable options with
    | error failure => simp
    | ok path =>
      simp only [Except.ok.injEq, exists_and_left, exists_eq_left', reduceCtorEq, false_and,
        exists_false, false_or, true_and]
      generalize execute host executable path args options w = answer
      obtain ⟨_ | _, _⟩ := answer <;> simp

theorem spawn_eq_ok_iff :
    (∃ child, (spawn host executable args options w).1 = .ok child) ↔
      HasDirectory (host.view w) options ∧
        ∃ path launched, Launch.resolve (host.view w) executable options = .ok path ∧
          (execute host executable path args options w).1 = .ok launched := by
  rw [spawn_eq, ← missingDirectory?_eq_none_iff]
  cases missingDirectory? (host.view w) options with
  | some directory => simp
  | none =>
    cases Launch.resolve (host.view w) executable options with
    | error failure => simp
    | ok path =>
      simp only [Except.ok.injEq, exists_and_left, exists_eq_left', true_and]
      generalize execute host executable path args options w = answer
      obtain ⟨_ | _, _⟩ := answer <;> simp

theorem spawn_eq_notFound_iff {name : String} :
    (spawn host executable args options w).1 = .error (.notFound name) ↔
      name = executable ∧ HasDirectory (host.view w) options ∧
        (Launch.Nowhere (host.view w) executable options ∨
          ∃ path, Launch.Found (host.view w) executable options path ∧
            (execute host executable path args options w).1 = .error (.os Errno.noEntry)) := by
  simp only [spawn_eq_error_iff, Launch.resolve_eq_notFound_iff, Launch.resolve_eq_ok_iff,
    SpawnError.ofSystem_eq_notFound_iff, reduceCtorEq, and_false, exists_false, false_or]
  constructor
  · rintro ⟨hdirectory, ⟨hname, hnowhere⟩ | ⟨path, cause, hfound, hanswer, hname, rfl⟩⟩
    · exact ⟨hname, hdirectory, Or.inl hnowhere⟩
    · exact ⟨hname, hdirectory, Or.inr ⟨path, hfound, hanswer⟩⟩
  · rintro ⟨hname, hdirectory, hnowhere | ⟨path, hfound, hanswer⟩⟩
    · exact ⟨hdirectory, Or.inl ⟨hname, hnowhere⟩⟩
    · exact ⟨hdirectory, Or.inr ⟨path, _, hfound, hanswer, hname, rfl⟩⟩

theorem spawn_eq_permissionDenied_iff {path : String} :
    (spawn host executable args options w).1 = .error (.permissionDenied path) ↔
      HasDirectory (host.view w) options ∧
        (Launch.Denied (host.view w) executable options path ∨
          Launch.Found (host.view w) executable options path ∧
            ((execute host executable path args options w).1 = .error (.os Errno.accessDenied) ∨
              (execute host executable path args options w).1 =
                .error (.os Errno.notPermitted))) := by
  simp only [spawn_eq_error_iff, Launch.resolve_eq_permissionDenied_iff, Launch.resolve_eq_ok_iff,
    SpawnError.ofSystem_eq_permissionDenied_iff, reduceCtorEq, and_false, exists_false, false_or]
  refine and_congr_right fun _ => or_congr_right ?_
  constructor
  · rintro ⟨_, _, hfound, hanswer, rfl, rfl | rfl⟩
    · exact ⟨hfound, Or.inl hanswer⟩
    · exact ⟨hfound, Or.inr hanswer⟩
  · rintro ⟨hfound, hanswer | hanswer⟩
    · exact ⟨path, _, hfound, hanswer, rfl, Or.inl rfl⟩
    · exact ⟨path, _, hfound, hanswer, rfl, Or.inr rfl⟩

theorem spawn_eq_osFailure_iff {name : String} {cause : SystemError} :
    (spawn host executable args options w).1 = .error (.osFailure name cause) ↔
      name = executable ∧
        ((∃ directory, options.workingDirectory = some directory ∧
            (host.view w).isDirectory directory = false ∧
              cause = .refused ("working directory " ++ directory ++ " does not exist")) ∨
          HasDirectory (host.view w) options ∧
            (Launch.tries (host.view w) executable options = .error cause ∨
              ∃ path, Launch.Found (host.view w) executable options path ∧
                (execute host executable path args options w).1 = .error cause ∧
                  cause ≠ .os Errno.noEntry ∧ cause ≠ .os Errno.accessDenied ∧
                    cause ≠ .os Errno.notPermitted)) := by
  simp only [spawn_eq_error_iff, missingDirectory?_eq_some_iff, SpawnError.osFailure.injEq,
    Launch.resolve_eq_osFailure_iff, Launch.resolve_eq_ok_iff,
    SpawnError.ofSystem_eq_osFailure_iff]
  constructor
  · rintro (⟨directory, ⟨hgiven, hmissing⟩, hname, hcause⟩ | ⟨hdirectory, ⟨hname, htries⟩ |
      ⟨path, _, hfound, hanswer, hname, rfl, hcause⟩⟩)
    · exact ⟨hname, Or.inl ⟨directory, hgiven, hmissing, hcause⟩⟩
    · exact ⟨hname, Or.inr ⟨hdirectory, Or.inl htries⟩⟩
    · exact ⟨hname, Or.inr ⟨hdirectory, Or.inr ⟨path, hfound, hanswer, hcause⟩⟩⟩
  · rintro ⟨hname, ⟨directory, hgiven, hmissing, hcause⟩ | ⟨hdirectory, htries |
      ⟨path, hfound, hanswer, hcause⟩⟩⟩
    · exact Or.inl ⟨directory, ⟨hgiven, hmissing⟩, hname, hcause⟩
    · exact Or.inr ⟨hdirectory, Or.inl ⟨hname, htries⟩⟩
    · exact Or.inr ⟨hdirectory, Or.inr ⟨path, _, hfound, hanswer, hname, rfl, hcause⟩⟩

/-- The number in a failure is that of the system call that failed. -/
theorem errno?_of_spawn {failure : SpawnError} {errno : Errno}
    (h : (spawn host executable args options w).1 = .error failure) :
    failure.errno? = some errno ↔ failure = .osFailure executable (.os errno) := by
  cases failure with
  | osFailure name cause =>
    obtain ⟨rfl, -⟩ := spawn_eq_osFailure_iff.mp h
    cases cause <;> simp [SpawnError.errno?, SystemError.errno?]
  | _ => exact ⟨nofun, nofun⟩

/-- **Why a program is not started.**  It is reported as not found if the search comes upon nothing,
and also if the system says of the file that was found that there is no such file; permission is
denied if the search or the system denies it; and every other failure is the system's own, with its
number.  If there is no failure the program was found and started. -/
theorem failure_of_spawn (host : Host ω) (executable : String) (args : List String)
    (options : LaunchOptions) (w : ω) :
    let view := host.view w
    let outcome := (spawn host executable args options w).1
    let answer path := (execute host executable path args options w).1
    (∀ name, outcome = .error (.notFound name) ↔
      name = executable ∧ HasDirectory view options ∧
        (Launch.Nowhere view executable options ∨
          ∃ path, Launch.Found view executable options path ∧
            answer path = .error (.os Errno.noEntry))) ∧
    (∀ path, outcome = .error (.permissionDenied path) ↔
      HasDirectory view options ∧
        (Launch.Denied view executable options path ∨
          Launch.Found view executable options path ∧
            (answer path = .error (.os Errno.accessDenied) ∨
              answer path = .error (.os Errno.notPermitted)))) ∧
    (∀ name cause, outcome = .error (.osFailure name cause) ↔
      name = executable ∧
        ((∃ directory, options.workingDirectory = some directory ∧
            view.isDirectory directory = false ∧
              cause = .refused ("working directory " ++ directory ++ " does not exist")) ∨
          HasDirectory view options ∧
            (Launch.tries view executable options = .error cause ∨
              ∃ path, Launch.Found view executable options path ∧ answer path = .error cause ∧
                cause ≠ .os Errno.noEntry ∧ cause ≠ .os Errno.accessDenied ∧
                  cause ≠ .os Errno.notPermitted))) ∧
    (∀ failure errno, outcome = .error failure →
      (failure.errno? = some errno ↔ failure = .osFailure executable (.os errno))) ∧
    ((∃ child, outcome = .ok child) ↔ HasDirectory view options ∧
      ∃ path launched, Launch.Found view executable options path ∧
        answer path = .ok launched) := by
  intro view outcome answer
  refine ⟨fun name => spawn_eq_notFound_iff, fun path => spawn_eq_permissionDenied_iff,
    fun name cause => spawn_eq_osFailure_iff, fun failure errno => errno?_of_spawn, ?_⟩
  rw [spawn_eq_ok_iff]
  simp only [Launch.resolve_eq_ok_iff]
  rfl

/-- The machine, but the files on it are scripts whose interpreter is not there. -/
def Host.uninterpreted (host : Host ω) : Host ω :=
  { host with
    start := fun _ w => (.error (.os Errno.noEntry), w)
    nodup_start := fun h => by cases h }

/-- A script whose interpreter is not there is found, and is reported as not found. -/
theorem failure_of_script :
    Launch.Found (Host.ended.uninterpreted.view []) "/tool" {} "/tool" ∧
      (spawn Host.ended.uninterpreted "/tool" [] {} []).1 = .error (.notFound "/tool") := by
  have hslash : '/' ∈ "/tool".toList := by decide
  have hstart : Launch.home (Host.ended.uninterpreted.view []) {} = .ok none := rfl
  have htries : Launch.tries (Host.ended.uninterpreted.view []) "/tool" {} = .ok ["/tool"] :=
    Launch.tries_of_slash hslash hstart
  have hfound : Launch.Found (Host.ended.uninterpreted.view []) "/tool" {} "/tool" :=
    ⟨["/tool"], htries, rfl, [], [], rfl, nofun⟩
  have hplain : isPlain "/tool" = true := by
    rw [isPlain, String.contains_char_eq]
    decide
  have hanswer : (execute Host.ended.uninterpreted "/tool" "/tool" [] {} []).1 =
      .error (.os Errno.noEntry) := by
    simp only [execute, LaunchRequest.isPlain, LaunchRequest.of, hplain]
    rfl
  obtain ⟨hnotFound, -⟩ := failure_of_spawn Host.ended.uninterpreted "/tool" [] {} []
  exact ⟨hfound, (hnotFound "/tool").mpr ⟨rfl, nofun, Or.inr ⟨"/tool", hfound, hanswer⟩⟩⟩

end Chaperone
