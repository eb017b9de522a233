import Chaperone.Proofs.Launch.Failure
import Chaperone.Proofs.Supervise.Chronicle

/-!
# Which variables a program finds

A variable is handed to a program as one text, in which its name ends at the first equals sign.  So
a name with an equals sign in it is not found again: the variable is found under what stands before
that sign, and may hide there that nothing was given (`Masks`).

A name is looked up in the texts from the first one on.  They are in the order of their names, and a
name comes before all that go on behind it, so what masks a name never comes before the variable of
that very name (`lookup_given_of_sorted`).  Hence a program finds its own variables unless their
names have an equals sign, and what its launcher has unless that is nothing and one of its own
variables masks the name (`Supervise.variables_of_launch`).
-/

namespace Chaperone

/-! ### One variable -/

/-- A variable called `key` is found under the other name, which its own goes on behind. -/
def Masks (key name : String) : Prop := ∃ rest, key = variableText name rest

theorem toList_variableText (name value : String) :
    (variableText name value).toList = name.toList ++ '=' :: value.toList := by
  simp [variableText]

theorem Masks.equals_mem {key name : String} (h : Masks key name) : '=' ∈ key.toList := by
  obtain ⟨rest, rfl⟩ := h
  rw [toList_variableText]
  exact List.mem_append_right _ List.mem_cons_self

/-- A name comes before those that go on behind it. -/
theorem Masks.lt {key name : String} (h : Masks key name) : name < key := by
  obtain ⟨rest, rfl⟩ := h
  rw [String.lt_iff_toList_lt, toList_variableText]
  conv_lhs => rw [← List.append_nil name.toList]
  exact List.append_left_lt (List.nil_lt_cons _ _)

/-- A name without an equals sign is read back. -/
theorem splitVariable?_variableText {name : String} (h : '=' ∉ name.toList) (value : String) :
    splitVariable? (variableText name value) = some (name, value) := by
  have hname : ∀ c ∈ name.toList, decide (c ≠ '=') = true := by
    intro c hc
    rw [decide_eq_true_iff]
    rintro rfl
    exact h hc
  have htake : (variableText name value).toList.takeWhile (· ≠ '=') = name.toList := by
    rw [toList_variableText, List.takeWhile_append_of_pos hname]
    simp
  have hdrop : (variableText name value).toList.dropWhile (· ≠ '=') = '=' :: value.toList := by
    rw [toList_variableText, List.dropWhile_append_of_pos hname]
    simp
  simp only [splitVariable?, htake, hdrop, String.ofList_toList]

/-- A variable is found under a name without an equals sign, with its own value if that is its own
name, and else as one that masks the name. -/
theorem splitVariable?_cases (key value : String) :
    ∃ name found, splitVariable? (variableText key value) = some (name, found) ∧
      '=' ∉ name.toList ∧ (name = key ∧ found = value ∨ Masks key name) := by
  by_cases h : '=' ∈ key.toList
  · obtain ⟨first, rest, hkey, hfirst⟩ := List.eq_append_cons_of_mem h
    have hmasks : key = variableText (String.ofList first) (String.ofList rest) := by
      apply String.toList_injective
      rw [hkey, toList_variableText, String.toList_ofList, String.toList_ofList]
    have hname : '=' ∉ (String.ofList first).toList := by rwa [String.toList_ofList]
    -- the rest of the name is handed over in front of the value
    have hsame : variableText key value =
        variableText (String.ofList first) (variableText (String.ofList rest) value) := by
      rw [hmasks]
      simp only [variableText, String.append_assoc]
    exact ⟨_, _, hsame ▸ splitVariable?_variableText hname _, hname, Or.inr ⟨_, hmasks⟩⟩
  · exact ⟨key, value, splitVariable?_variableText h value, h, Or.inl ⟨rfl, rfl⟩⟩

/-- A variable is found under a name that it masks. -/
theorem splitVariable?_of_masks {key name : String} (h : Masks key name) (hname : '=' ∉ name.toList)
    (value : String) : ∃ found, splitVariable? (variableText key value) = some (name, found) := by
  obtain ⟨rest, rfl⟩ := h
  refine ⟨variableText rest value, ?_⟩
  rw [← splitVariable?_variableText hname]
  simp only [variableText, String.append_assoc]

/-! ### All variables -/

section
variable {vars : List (String × String)} {name : String}

theorem takeOver_handOver_cons {key value found : String}
    (h : splitVariable? (variableText key value) = some (name, found)) :
    takeOver (handOver ((key, value) :: vars)) = (name, found) :: takeOver (handOver vars) := by
  rw [takeOver, handOver, List.map_cons, List.filterMap_cons_some h]
  rfl

theorem mem_of_lookup {value : String} (h : vars.lookup name = some value) :
    (name, value) ∈ vars := by
  obtain ⟨before, after, rfl, -⟩ := List.lookup_eq_some_iff.mp h
  exact List.mem_append_right _ List.mem_cons_self

/-- Nothing is found under a name with an equals sign. -/
theorem lookup_given_of_equals (h : '=' ∈ name.toList) :
    (takeOver (handOver vars)).lookup name = none := by
  induction vars with
  | nil => rfl
  | cons head rest ih =>
    obtain ⟨key, value⟩ := head
    obtain ⟨other, found, hsplit, hother, -⟩ := splitVariable?_cases key value
    have hne : name ≠ other := by
      rintro rfl
      exact hother h
    rw [takeOver_handOver_cons hsplit, lookup_cons_eq_ite, if_neg hne, ih]

/-- A name that no variable masks is found as it was given. -/
theorem lookup_given_of_unmasked (hname : '=' ∉ name.toList)
    (h : ∀ entry ∈ vars, ¬Masks entry.1 name) :
    (takeOver (handOver vars)).lookup name = vars.lookup name := by
  induction vars with
  | nil => rfl
  | cons head rest ih =>
    obtain ⟨key, value⟩ := head
    have hrest := ih fun entry hentry => h entry (List.mem_cons_of_mem _ hentry)
    obtain ⟨other, found, hsplit, -, ⟨rfl, rfl⟩ | hmasks⟩ := splitVariable?_cases key value
    · rw [takeOver_handOver_cons hsplit, lookup_cons_eq_ite, lookup_cons_eq_ite, hrest]
    · have hother : name ≠ other := by
        rintro rfl
        exact h _ List.mem_cons_self hmasks
      have hkey : name ≠ key := by
        rintro rfl
        exact hname hmasks.equals_mem
      rw [takeOver_handOver_cons hsplit, lookup_cons_eq_ite, lookup_cons_eq_ite, if_neg hother,
        if_neg hkey, hrest]

/-- In variables in the order of their names, what was given for a name is found under it, whatever
masks it: that comes later. -/
theorem lookup_given_of_sorted (hsorted : vars.Pairwise fun a b => a.1 < b.1)
    (hname : '=' ∉ name.toList) {value : String} (h : vars.lookup name = some value) :
    (takeOver (handOver vars)).lookup name = some value := by
  induction vars with
  | nil => cases h
  | cons head rest ih =>
    obtain ⟨key, first⟩ := head
    obtain ⟨hbefore, hrest⟩ := List.pairwise_cons.mp hsorted
    rw [lookup_cons_eq_ite] at h
    by_cases hkey : name = key
    · subst hkey
      rw [if_pos rfl] at h
      rw [takeOver_handOver_cons (splitVariable?_variableText hname first), lookup_cons_eq_ite,
        if_pos rfl, h]
    · rw [if_neg hkey] at h
      have hlt : key < name := hbefore _ (mem_of_lookup h)
      obtain ⟨other, found, hsplit, -, hcases⟩ := splitVariable?_cases key first
      have hother : name ≠ other := by
        rintro rfl
        rcases hcases with ⟨rfl, -⟩ | hmasks
        · exact hkey rfl
        · exact String.lt_irrefl _ (String.lt_trans hlt hmasks.lt)
      rw [takeOver_handOver_cons hsplit, lookup_cons_eq_ite, if_neg hother, ih hrest h]

/-- Under a name that some variable masks something is found. -/
theorem lookup_given_of_masks {entry : String × String} (hentry : entry ∈ vars)
    (hmasks : Masks entry.1 name) (hname : '=' ∉ name.toList) :
    (takeOver (handOver vars)).lookup name ≠ none := by
  obtain ⟨key, value⟩ := entry
  obtain ⟨found, hsplit⟩ := splitVariable?_of_masks hmasks hname value
  have hmem : (name, found) ∈ takeOver (handOver vars) :=
    List.mem_filterMap.mpr ⟨_, List.mem_map_of_mem hentry, hsplit⟩
  intro hnone
  have hne := List.lookup_eq_none_iff.mp hnone _ hmem
  simp at hne

end

/-! ### What a launch hands over -/

/-- What is put into an environment is there, with what was there before. -/
theorem Environment.mem_foldl_insert {environment : Environment}
    {entries : List (String × String)} {entry : String × String}
    (h : entry ∈ (entries.foldl (fun all (name, value) => all.insert name value)
      environment).entries) : entry ∈ entries ∨ entry ∈ environment.entries := by
  induction entries generalizing environment with
  | nil => exact Or.inr h
  | cons head rest ih =>
    rw [List.foldl_cons] at h
    rcases ih h with hrest | hbefore
    · exact Or.inl (List.mem_cons_of_mem _ hrest)
    · rcases mem_insertEntry hbefore with rfl | hold
      · exact Or.inl List.mem_cons_self
      · exact Or.inr hold

namespace Launch

variable {view : FileView} {options : LaunchOptions} {name : String}

/-- A program without variables of its own is handed its launcher's, or none; another one is handed
all of them in the order of their names. -/
theorem environmentBlock_cases (view : FileView) (options : LaunchOptions) :
    options.environment.entries = [] ∧ environmentBlock view options = view.vars ∨
      ∃ all : Environment, environmentBlock view options = all.entries := by
  rw [environmentBlock]
  split
  · exact Or.inr ⟨_, rfl⟩
  · split
    · next hempty => exact Or.inl ⟨List.isEmpty_iff.mp hempty, rfl⟩
    · exact Or.inr ⟨_, rfl⟩

/-- What the options give for a name is handed over, whatever the launcher has for it. -/
theorem lookup_environmentBlock_of_own (view : FileView) {value : String}
    (h : options.environment.get? name = some value) :
    (environmentBlock view options).lookup name = some value := by
  have hne : options.environment.isEmpty = false := by
    rw [Environment.isEmpty, List.isEmpty_eq_false_iff]
    intro hnil
    rw [Environment.get?, hnil] at h
    cases h
  rw [environmentBlock]
  split
  · exact h
  · rw [hne, if_neg Bool.false_ne_true]
    have hall := options.environment.get?_foldl_entries (Environment.ofList view.vars) name
    rw [h, Option.some_or] at hall
    exact hall

/-- What is handed over comes from the options or from the launcher. -/
theorem mem_environmentBlock {entry : String × String} (h : entry ∈ environmentBlock view options) :
    entry ∈ options.environment.entries ∨ entry ∈ view.vars := by
  rw [environmentBlock] at h
  split at h
  · exact Or.inl h
  · split at h
    · exact Or.inr h
    · refine (Environment.mem_foldl_insert h).imp_right fun hlauncher => ?_
      rcases Environment.mem_foldl_insert hlauncher with hvars | hnone
      · exact hvars
      · cases hnone

end Launch

namespace LaunchRequest

variable {view : FileView} {options : LaunchOptions} {path executable name value : String}
  {args : List String}

/-- A program finds a variable of its own, unless its name has an equals sign. -/
theorem find?_of_own (h : options.environment.get? name = some value) :
    (LaunchRequest.of view path executable args options).find? name = some value ↔
      '=' ∉ name.toList := by
  have hblock := Launch.lookup_environmentBlock_of_own view h
  show (takeOver (handOver (Launch.environmentBlock view options))).lookup name = some value ↔ _
  constructor
  · intro hfound hequals
    rw [lookup_given_of_equals hequals] at hfound
    cases hfound
  · intro hname
    rcases Launch.environmentBlock_cases view options with ⟨hnil, -⟩ | ⟨all, hall⟩
    · rw [Environment.get?, hnil] at h
      cases h
    · rw [hall] at hblock ⊢
      exact lookup_given_of_sorted all.sorted hname hblock

/-- A program finds what its launcher has for a name that is not one of its own, unless that is
nothing and one of its own variables masks the name. -/
theorem find?_of_inherited (hbase : options.environmentBase = .inherit)
    (hread : ∀ entry ∈ view.vars, '=' ∉ entry.1.toList.tail)
    (hone : (view.vars.map Prod.fst).count name ≤ 1) (hne : name ≠ "") (hname : '=' ∉ name.toList)
    (hnone : options.environment.get? name = none) :
    (LaunchRequest.of view path executable args options).find? name = view.vars.lookup name ↔
      view.vars.lookup name ≠ none ∨ ∀ key ∈ options.environment.names, ¬Masks key name := by
  have hblock : (Launch.environmentBlock view options).lookup name = view.vars.lookup name := by
    rw [Launch.lookup_environmentBlock hone, hnone, Option.none_or, Launch.inherited, hbase]
  have hlauncher : ∀ entry ∈ view.vars, ¬Masks entry.1 name := by
    rintro entry hentry ⟨rest, hrest⟩
    have hchars : name.toList ≠ [] := fun h => hne (String.toList_eq_nil_iff.mp h)
    obtain ⟨c, cs, hchars⟩ := List.exists_cons_of_ne_nil hchars
    refine hread entry hentry ?_
    rw [hrest, toList_variableText, hchars]
    exact List.mem_append_right _ List.mem_cons_self
  show (takeOver (handOver (Launch.environmentBlock view options))).lookup name = _ ↔ _
  constructor
  · intro hfound
    by_contra hnot
    obtain ⟨hmissing, hall⟩ := not_or.mp hnot
    rw [not_not] at hmissing
    apply hall
    intro key hkey hmasks
    obtain ⟨entry, hentry, rfl⟩ := List.mem_map.mp hkey
    obtain ⟨value, hvalue⟩ : ∃ value, options.environment.get? entry.1 = some value := by
      refine Option.ne_none_iff_exists'.mp fun h => ?_
      have := List.lookup_eq_none_iff.mp h entry hentry
      simp at this
    have hmem := mem_of_lookup (Launch.lookup_environmentBlock_of_own view hvalue)
    exact lookup_given_of_masks hmem hmasks hname (hfound.trans hmissing)
  · rintro (hsome | hmasks)
    · obtain ⟨value, hvalue⟩ := Option.ne_none_iff_exists'.mp hsome
      rcases Launch.environmentBlock_cases view options with ⟨-, hsame⟩ | ⟨all, hall⟩
      · rw [hsame, lookup_given_of_unmasked hname hlauncher]
      · rw [hvalue] at hblock ⊢
        rw [hall] at hblock ⊢
        exact lookup_given_of_sorted all.sorted hname hblock
    · rw [lookup_given_of_unmasked hname, hblock]
      intro entry hentry
      rcases Launch.mem_environmentBlock hentry with hown | hvars
      · exact hmasks _ (List.mem_map_of_mem hown)
      · exact hlauncher entry hvars

end LaunchRequest

/-! ### What a program of a plan finds -/

variable {ω : Type}

/-- A launch that succeeds asks the system for one thing. -/
theorem start_of_logged_spawn {host : Host ω} {executable : String} {args : List String}
    {options : LaunchOptions} {w w' : ω × Log} {child : Child}
    (h : spawn host.logged executable args options w = (.ok child, w')) :
    ∃ path launched, child.pid = launched.pid ∧ w'.2 = w.2 ++
      [.start (LaunchRequest.of (host.view w.1) path executable args options) (.ok launched)] := by
  rw [spawn_eq] at h
  split at h
  · cases h
  · split at h
    · cases h
    · next path hpath =>
      simp only [execute] at h
      split at h
      · next hexecuted =>
        cases h
      · next launched after hexecuted =>
        obtain ⟨rfl, rfl⟩ := h
        split at hexecuted
        · obtain ⟨hstart, rfl⟩ := Prod.mk.inj hexecuted
          refine ⟨path, launched, rfl, ?_⟩
          rw [← hstart]
          rfl
        · cases hexecuted

def Host.withVars (host : Host ω) (vars : List (String × String)) : Host ω :=
  { host with view := fun w => { host.view w with vars } }

namespace Supervise

variable {κ : Type}

/-- **Which variables a program finds.**  A launch that succeeds starts one program.  Of the
variables that its plan gives it, the program finds those whose names have no equals sign, and no
other ones.  Under any other name it finds what the launcher has, or nothing if that has nothing,
unless the launcher has nothing and the name is masked by a variable of the program.

The launcher has its own variables as one reads them: each has one value, and an equals sign is part
of a name at its beginning only. -/
theorem variables_of_launch (host : Host ω) (program : Program) (callbacks : Callbacks (Record κ))
    (supervisor : Supervisor (Record κ)) (record : Record κ) (w : ω × Log) {pid : Pid}
    {after : Supervisor (Record κ) × Record κ × ω × Log}
    (hlaunched : launch host.logged program callbacks supervisor record w = (.ok pid, after))
    (hread : ∀ entry ∈ (host.view w.1).vars, '=' ∉ entry.1.toList.tail) :
    let view := host.view w.1
    let own := program.environment
    ∃ request launched rest, after.2.2.2 = w.2 ++ .start request (.ok launched) :: rest ∧
      launched.pid = pid ∧ (∀ call ∈ rest, call.Tells) ∧
      (∀ name value, own.get? name = some value →
        (request.find? name = some value ↔ '=' ∉ name.toList)) ∧
      ∀ name, own.get? name = none → name ≠ "" → '=' ∉ name.toList →
        (view.vars.map Prod.fst).count name ≤ 1 →
          (request.find? name = view.vars.lookup name ↔
            view.vars.lookup name ≠ none ∨ ∀ key ∈ own.names, ¬Masks key name) := by
  intro view own
  rw [launch_eq, Supervisor.launch] at hlaunched
  split at hlaunched
  · cases hlaunched
  · next child w' hspawn =>
    obtain ⟨path, launched, hpid, hstart⟩ := start_of_logged_spawn hspawn
    simp only [Supervisor.register, Prod.mk.injEq, Except.ok.injEq] at hlaunched
    obtain ⟨rfl, rfl⟩ := hlaunched
    obtain ⟨-, ⟨rest, hrest, htells⟩, -⟩ :=
      Entry.launched_spec host child callbacks false record w' rfl
    refine ⟨.of view path program.executable program.arguments program.options, launched, rest, ?_,
      hpid.symm, htells,
      fun name value hown => LaunchRequest.find?_of_own hown,
      fun name hnone hne hname hone =>
        LaunchRequest.find?_of_inherited rfl hread hone hne hname hnone⟩
    show (Entry.launched host.logged child callbacks false record w').2.2.2 = _
    rw [hrest, hstart, List.append_assoc]
    rfl

def masked : Program where
  name := "p"
  command := "/tool"
  environment := .ofList [("A=B", "c"), ("LANG", "C")]

/-- A plan with this program is accepted, but the program does not find the one variable under its
name, and finds something under a name for which there is nothing. -/
theorem variables_of_masked :
    let host := Host.lone.withVars [("HOME", "/"), ("LANG", "de")]
    let launched := launch host.logged masked Callbacks.none ({} : Supervisor (Record Unit))
      ⟨(), []⟩ (({ answers := [] }, []) : Lone × Log)
    Plan.validate { programs := [masked] } = .ok () ∧ launched.1 = .ok 1 ∧
      ∃ request answer rest, launched.2.2.2.2 = .start request (.ok answer) :: rest ∧
        request.find? "A=B" ≠ some "c" ∧ request.find? "A" ≠ none ∧
          request.find? "LANG" = some "C" ∧ request.find? "HOME" = some "/" := by
  intro host launched
  have haccepted : Plan.validate { programs := [masked] } = .ok () := by decide
  have hok : launched.1 = .ok 1 := by
    unfold launched host
    cbv
  have hlaunched : launched = (.ok 1, launched.2) := Prod.ext hok rfl
  have hread : ∀ entry ∈ (host.view { answers := [] }).vars, '=' ∉ entry.1.toList.tail := by decide
  obtain ⟨request, answer, rest, hstart, -, -, hown, hother⟩ :=
    variables_of_launch host masked Callbacks.none {} ⟨(), []⟩ ({ answers := [] }, [])
      hlaunched hread
  refine ⟨haccepted, hok, request, answer, rest, hstart, ?_, ?_, ?_, ?_⟩
  · intro hfound
    exact (hown "A=B" "c" (by decide)).mp hfound (by decide)
  · intro hnothing
    rcases (hother "A" (by decide) (by decide) (by decide) (by decide)).mp hnothing with h | h
    · exact h rfl
    · exact h "A=B" (by decide) ⟨"B", rfl⟩
  · exact (hown "LANG" "C" (by decide)).mpr (by decide)
  · refine (hother "HOME" (by decide) (by decide) (by decide) (by decide)).mpr (Or.inl ?_)
    exact Option.some_ne_none "/"

end Supervise

end Chaperone
