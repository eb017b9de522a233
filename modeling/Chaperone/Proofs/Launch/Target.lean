import Chaperone.Machine.Bytes
import Chaperone.Machine.Files
import Chaperone.Proofs.Launch.Failure
import Chaperone.Proofs.Log
import Chaperone.Proofs.Text.Encoding

/-!
# Which file is executed

The search looks at files from where the launcher is, and the system executes the file after the
program has gone to the directory where it starts.  Both mean the same file, since what a search
finds for a program with a directory of its own starts at the root (`Launch.isAbsolute_of_tries`),
and the system does not search again, since it always has a slash (`Launch.slash_mem_of_tries`).
-/

namespace Chaperone

/-! ### Paths from the root -/

/-- A path from the root leads to the same from every place. -/
def StartsAtRoot {Place File : Type} (find : Place → String → File) : Prop :=
  ∀ path, Path.isAbsolute path = true → ∀ here there, find there path = find here path

namespace Machine

theorem toList_ofBytes (bytes : List UInt8) :
    (ofBytes bytes).toList = bytes.map fun b => Char.ofNat b.toNat := by
  have hloop (bytes : List UInt8) (done : String) :
      (bytes.foldl (fun s b => s.push (Char.ofNat b.toNat)) done).toList =
        done.toList ++ bytes.map fun b => Char.ofNat b.toNat := by
    induction bytes generalizing done with
    | nil => simp
    | cons b rest ih => simp [ih]
  simpa [ofBytes] using hloop bytes ""

/-- A path from the root is one in bytes too. -/
theorem isAbsolute_ofText {path : String} (h : Path.isAbsolute path) :
    Path.isAbsolute (ofText path) := by
  obtain ⟨rest, hrest⟩ := Path.isAbsolute_iff.mp h
  have hpath : path = "/" ++ String.ofList rest := by
    apply String.toList_injective
    simp [← hrest]
  -- a slash is one byte, whatever follows
  have hslash : (Text.Utf8.encode "/").map (fun b => Char.ofNat b.toNat) = ['/'] := by decide +kernel
  rw [Path.isAbsolute_iff, hpath, ofText, Text.Utf8.encode_append, toList_ofBytes, List.map_append,
    hslash]
  exact List.prefix_append ..

/-- Files are looked up in this way. -/
theorem Files.startsAtRoot_find (files : Files) :
    StartsAtRoot fun place path => files.find place (ofText path) := by
  intro path habsolute here there
  have hstart : (ofText path).startsWith "/" = true := isAbsolute_ofText habsolute
  simp only [find, locate, hstart, if_true]

end Machine

/-! ### Where the paths of a search start -/

namespace Launch

variable {view : FileView} {options : LaunchOptions} {executable path start : String}
  {paths : List String}

theorem home_eq_none_iff : home view options = .ok none ↔ options.workingDirectory = none := by
  rw [home]
  cases options.workingDirectory with
  | none => simp
  | some directory =>
    dsimp only
    split
    · simp
    · cases view.currentDirectory <;> simp [Except.map]

/-- A program that does not start where the launcher is has a directory from the root. -/
theorem isAbsolute_home (hcurrent : ∀ current, view.currentDirectory = .ok current →
    Path.isAbsolute current) (h : home view options = .ok (some start)) :
    Path.isAbsolute start := by
  rw [home] at h
  cases hdirectory : options.workingDirectory with
  | none => simp [hdirectory] at h
  | some directory =>
    simp only [hdirectory] at h
    split at h
    · next habsolute =>
      obtain rfl := Option.some.inj (Except.ok.inj h)
      exact habsolute
    · cases hview : view.currentDirectory with
      | error cause => simp [hview, Except.map] at h
      | ok current =>
        simp only [hview, Except.map, Except.ok.injEq, Option.some.injEq] at h
        rw [← h]
        exact Path.isAbsolute_join (hcurrent current hview) directory

theorem ne_empty_of_isAbsolute (h : Path.isAbsolute path) : path ≠ "" := by
  rintro rfl
  exact absurd h (by decide)

theorem mem_directories {searchPath directory : String}
    (h : directory ∈ directories searchPath) : directory ≠ "" := by
  obtain ⟨entry, -, rfl⟩ := List.mem_map.mp h
  split
  · decide
  · assumption

/-- What is tried for a program: what its name means where it starts, or a file of that name in one
of the directories of its search path. -/
theorem mem_tries (h : tries view executable options = .ok paths) (hpath : path ∈ paths) :
    ∃ start, home view options = .ok start ∧
      ('/' ∈ executable.toList ∧ path = seenFrom start executable ∨
        ∃ directory ≠ "", path = Path.join (seenFrom start directory) executable) := by
  rw [tries] at h
  split at h
  · cases h
    cases hpath
  · cases hhome : home view options with
    | error cause => simp [hhome, Except.map] at h
    | ok start =>
      simp only [hhome, Except.map, Except.ok.injEq] at h
      refine ⟨start, rfl, ?_⟩
      rw [← h] at hpath
      split at hpath
      · next hslash =>
        rw [String.contains_char_eq, decide_eq_true_iff] at hslash
        exact Or.inl ⟨hslash, List.mem_singleton.mp hpath⟩
      · rw [searchPath_eq, candidates_eq] at hpath
        obtain ⟨directory, hdirectory, rfl⟩ := List.mem_map.mp hpath
        exact Or.inr ⟨directory, mem_directories hdirectory, rfl⟩

variable (hcurrent : ∀ current, view.currentDirectory = .ok current → Path.isAbsolute current)
include hcurrent

/-- Every path that is tried has a slash. -/
theorem slash_mem_of_tries (h : tries view executable options = .ok paths) (hpath : path ∈ paths) :
    '/' ∈ path.toList := by
  obtain ⟨start, hhome, ⟨hslash, rfl⟩ | ⟨directory, hdirectory, rfl⟩⟩ := mem_tries h hpath
  · cases start with
    | none => exact hslash
    | some start =>
      exact Path.slash_mem_join (ne_empty_of_isAbsolute (isAbsolute_home hcurrent hhome)) _
  · refine Path.slash_mem_join ?_ _
    cases start with
    | none => exact hdirectory
    | some start =>
      exact ne_empty_of_isAbsolute (Path.isAbsolute_join (isAbsolute_home hcurrent hhome) _)

/-- Every path that is tried for a program with a directory of its own starts at the root. -/
theorem isAbsolute_of_tries (h : tries view executable options = .ok paths) (hpath : path ∈ paths)
    (hown : options.workingDirectory ≠ none) : Path.isAbsolute path := by
  obtain ⟨_ | start, hhome, hpath⟩ := mem_tries h hpath
  · exact absurd (home_eq_none_iff.mp hhome) hown
  · have hstart := isAbsolute_home hcurrent hhome
    rcases hpath with ⟨-, rfl⟩ | ⟨directory, -, rfl⟩
    · exact Path.isAbsolute_join hstart executable
    · exact Path.isAbsolute_join (Path.isAbsolute_join hstart directory) executable

end Launch

variable {ω : Type}

/-- A launch asks the system for nothing, or to start the file that the search has found. -/
theorem request_of_logged_spawn (host : Host ω) (executable : String) (args : List String)
    (options : LaunchOptions) (w : ω × Log) :
    let after := (spawn host.logged executable args options w).2
    after.2 = w.2 ∨ ∃ request answer, after.2 = w.2 ++ [.start request answer] ∧
      Launch.resolve (host.view w.1) executable options = .ok request.path ∧
        request.directory = options.workingDirectory := by
  intro after
  have hafter : after = (spawn host.logged executable args options w).2 := rfl
  rw [spawn_eq] at hafter
  split at hafter
  · exact Or.inl (congrArg Prod.snd hafter)
  · split at hafter
    · exact Or.inl (congrArg Prod.snd hafter)
    · next path hpath =>
      have hexecuted : after = (execute host.logged executable path args options w).2 := by
        rw [hafter]
        generalize execute host.logged executable path args options w = answer
        obtain ⟨_ | _, _⟩ := answer <;> rfl
      rw [hexecuted, execute]
      split
      · exact Or.inr ⟨_, _, rfl, hpath, rfl⟩
      · exact Or.inl rfl

/-- **The file that is executed is the one that was found.**  What a search finds has a slash, so
the system does not search for it again.  For a program that starts in a place of its own it is a
path from the root, which leads to the same there as where the launcher is.  A name with a slash is
taken from that place.  The only file that a launch asks the system to start is the one that was
found. -/
theorem target_of_spawn (host : Host ω) (executable : String) (args : List String)
    (options : LaunchOptions) (w : ω × Log)
    (hcurrent : ∀ current, (host.view w.1).currentDirectory = .ok current →
      Path.isAbsolute current = true) :
    let view := host.view w.1
    let after := (spawn host.logged executable args options w).2
    (∀ path, Launch.resolve view executable options = .ok path →
      view.candidate path = .executable ∧ '/' ∈ path.toList ∧
        (options.workingDirectory ≠ none → Path.isAbsolute path = true) ∧
          ∀ {Place File : Type} (find : Place → String → File), StartsAtRoot find →
            ∀ here there, (options.workingDirectory = none → there = here) →
              find there path = find here path) ∧
    (∀ start, Launch.home view options = .ok (some start) → '/' ∈ executable.toList → ∀ path,
      Launch.resolve view executable options = .ok path ↔
        path = Path.join start executable ∧ view.candidate path = .executable) ∧
    (after.2 = w.2 ∨ ∃ request answer, after.2 = w.2 ++ [.start request answer] ∧
      Launch.resolve view executable options = .ok request.path ∧
        request.directory = options.workingDirectory) := by
  intro view after
  refine ⟨fun path hpath => ?_, fun start hstart hslash path => ?_,
    request_of_logged_spawn host executable args options w⟩
  · obtain ⟨paths, htries, hfirst⟩ := Launch.resolve_eq_ok_iff.mp hpath
    refine ⟨hfirst.1, Launch.slash_mem_of_tries hcurrent htries hfirst.mem,
      Launch.isAbsolute_of_tries hcurrent htries hfirst.mem, fun find hroot here there hsame => ?_⟩
    by_cases hown : options.workingDirectory = none
    · rw [hsame hown]
    · exact hroot path (Launch.isAbsolute_of_tries hcurrent htries hfirst.mem hown) here there
  · rw [Launch.resolve_eq_ok_iff, Launch.tries_of_slash hslash hstart]
    constructor
    · rintro ⟨_, ⟨⟩, hfirst⟩
      exact ⟨List.mem_singleton.mp hfirst.mem, hfirst.1⟩
    · rintro ⟨rfl, hcandidate⟩
      exact ⟨_, rfl, hcandidate, [], [], rfl, nofun⟩

/-- A tool in a directory that is named as seen from where the launcher is. -/
theorem target_of_ended :
    let view := Host.ended.view []
    (∀ current, view.currentDirectory = .ok current → Path.isAbsolute current = true) ∧
      Launch.resolve view "./tool" { workingDirectory := some "shop" } = .ok "/shop/./tool" ∧
        ∀ (files : Machine.Files) (here there : Machine.Place),
          files.find there (Machine.ofText "/shop/./tool") =
            files.find here (Machine.ofText "/shop/./tool") := by
  intro view
  have hcurrent : ∀ current, view.currentDirectory = .ok current →
      Path.isAbsolute current = true := by
    intro current h
    obtain rfl := Except.ok.inj h
    decide +kernel
  have hstart : Launch.home view { workingDirectory := some "shop" } = .ok (some "/shop") := by
    decide +kernel
  have hjoin : "/shop/./tool" = Path.join "/shop" "./tool" := by decide +kernel
  obtain ⟨hfound, hslash, -⟩ := target_of_spawn Host.ended "./tool" []
    { workingDirectory := some "shop" } ([], []) hcurrent
  have hpath := (hslash "/shop" hstart (by decide) "/shop/./tool").mpr ⟨hjoin, rfl⟩
  exact ⟨hcurrent, hpath, fun files here there =>
    (hfound _ hpath).2.2.2 _ files.startsAtRoot_find here there nofun⟩

end Chaperone
