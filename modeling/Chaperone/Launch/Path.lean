/-!
# Paths

A path is a text in which slashes divide the names; nothing is normalised when paths are joined.
-/

namespace Chaperone.Path

/-- Whether a path starts at the root. -/
def isAbsolute (path : String) : Bool := path.startsWith "/"

/-- What `path` means when it is taken from `base`. -/
def join (base path : String) : String :=
  if isAbsolute path then path
  else if base.isEmpty || base.endsWith '/' then base ++ path
  else base ++ "/" ++ path

theorem isAbsolute_iff {path : String} : isAbsolute path ↔ ['/'] <+: path.toList :=
  String.startsWith_string_iff

/-- What starts at the root does so whatever comes after it. -/
theorem isAbsolute_append {base : String} (h : isAbsolute base) (rest : String) :
    isAbsolute (base ++ rest) := by
  rw [isAbsolute_iff, String.toList_append]
  exact (isAbsolute_iff.mp h).trans (List.prefix_append ..)

theorem isAbsolute_join {base : String} (h : isAbsolute base) (path : String) :
    isAbsolute (join base path) := by
  rw [join]
  split
  · assumption
  · split
    · exact isAbsolute_append h path
    · rw [String.append_assoc]
      exact isAbsolute_append h _

/-- Whatever is taken from a directory has a slash. -/
theorem slash_mem_join {base : String} (h : base ≠ "") (path : String) :
    '/' ∈ (join base path).toList := by
  rw [join]
  split
  · next habsolute => exact (isAbsolute_iff.mp habsolute).subset (by simp)
  · split
    · next hends =>
      simp only [Bool.or_eq_true, String.isEmpty_iff, h, false_or] at hends
      rw [String.endsWith_char_eq_getLast?, beq_iff_eq] at hends
      rw [String.toList_append]
      exact List.mem_append_left _ (List.mem_of_getLast? hends)
    · simp

end Chaperone.Path
