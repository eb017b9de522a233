/-!
# Environments

An environment gives texts to names.  Its entries are kept in the order of the names, each name
once, so two environments are equal when they give the same texts to the same names.
-/

namespace Chaperone

/-- Puts an entry into its place and removes an older one of that name. -/
def insertEntry (name value : String) : List (String × String) → List (String × String)
  | [] => [(name, value)]
  | (n, v) :: rest =>
    if name < n then (name, value) :: (n, v) :: rest
    else if name = n then (name, value) :: rest
    else (n, v) :: insertEntry name value rest

/-- An entry of the longer list is the new one or was there before. -/
theorem mem_insertEntry {name value : String} {entry : String × String}
    {entries : List (String × String)} (h : entry ∈ insertEntry name value entries) :
    entry = (name, value) ∨ entry ∈ entries := by
  induction entries with
  | nil => simpa [insertEntry] using h
  | cons head rest ih =>
    obtain ⟨n, v⟩ := head
    simp only [insertEntry] at h
    split at h
    · simpa using h
    · split at h
      · rcases List.mem_cons.1 h with h | h
        · exact .inl h
        · exact .inr (List.mem_cons_of_mem _ h)
      · rcases List.mem_cons.1 h with h | h
        · exact .inr (h ▸ List.mem_cons_self)
        · exact (ih h).imp id (List.mem_cons_of_mem _)

/-- Insertion keeps the entries in order. -/
theorem sorted_insertEntry {name value : String} {entries : List (String × String)}
    (h : entries.Pairwise fun a b => a.1 < b.1) :
    (insertEntry name value entries).Pairwise fun a b => a.1 < b.1 := by
  induction entries with
  | nil => simp [insertEntry]
  | cons head rest ih =>
    obtain ⟨n, v⟩ := head
    obtain ⟨before, tail⟩ := List.pairwise_cons.1 h
    simp only [insertEntry]
    split
    · rename_i hlt
      refine List.pairwise_cons.2 ⟨fun entry he => ?_, h⟩
      rcases List.mem_cons.1 he with he | he
      · exact he ▸ hlt
      · exact String.lt_trans hlt (before entry he)
    · split
      · rename_i heq
        exact List.pairwise_cons.2 ⟨fun entry he => heq ▸ before entry he, tail⟩
      · rename_i hge hne
        have hlt : n < name := by
          refine String.not_le.1 fun hle => hne ?_
          exact String.le_antisymm hle (String.not_lt.1 hge)
        refine List.pairwise_cons.2 ⟨fun entry he => ?_, ih tail⟩
        rcases mem_insertEntry he with he | he
        · exact he ▸ hlt
        · exact before entry he

/-- Texts for names. -/
structure Environment where
  entries : List (String × String) := []
  sorted : entries.Pairwise (fun a b => a.1 < b.1) := by simp
  deriving DecidableEq, Repr

namespace Environment

instance : Inhabited Environment := ⟨{}⟩

/-- No name has a text. -/
def empty : Environment := {}

/-- Gives a name a text. -/
def insert (environment : Environment) (name value : String) : Environment :=
  ⟨insertEntry name value environment.entries, sorted_insertEntry environment.sorted⟩

/-- The environment of a list of entries, of which the last one of a name counts. -/
def ofList (entries : List (String × String)) : Environment :=
  entries.foldl (fun environment (name, value) => environment.insert name value) empty

/-- The text of a name. -/
def get? (environment : Environment) (name : String) : Option String :=
  environment.entries.lookup name

/-- The names that have a text. -/
def names (environment : Environment) : List String := environment.entries.map (·.1)

/-- Whether no name has a text. -/
def isEmpty (environment : Environment) : Bool := environment.entries.isEmpty

end Environment

/-! ## Variables as texts -/

/-- The text in which a variable is handed to a program. -/
def variableText (name value : String) : String := name ++ "=" ++ value

/-- The variable that a text hands over.  Its name is what stands before the first equals sign, so a
text without one hands nothing over. -/
def splitVariable? (text : String) : Option (String × String) :=
  let name := text.toList.takeWhile (· ≠ '=')
  match text.toList.dropWhile (· ≠ '=') with
  | [] => none
  | _ :: value => some (String.ofList name, String.ofList value)

/-- The texts in which variables are handed to a program. -/
def handOver (vars : List (String × String)) : List String :=
  vars.map fun (name, value) => variableText name value

/-- The variables that a program makes of such texts. -/
def takeOver (block : List String) : List (String × String) := block.filterMap splitVariable?

end Chaperone
