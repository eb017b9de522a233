import Chaperone.Proofs.Document.Records
import Chaperone.Proofs.Json.RoundTrip

/-!
# Records with members left out

A field that has a default need not be written.  So the objects that stand for one record differ in
which of the members with a default value they have (`Omits`).

* `Fields.read_of_omits`: such an object is read as the members that are left.
* `Omits.getD`: a field that was left out gets the value that it would have had.
* `Omits.plain`: what is left is written without loss if the whole record is.
-/

namespace Chaperone

inductive Omits (defaults : Fields) : Fields → Fields → Prop where
  | nil : Omits defaults [] []
  | keep (member : String × Datum) {members left : Fields} (h : Omits defaults members left) :
      Omits defaults (member :: members) (member :: left)
  | drop {member : String × Datum} (hdefault : member ∈ defaults) {members left : Fields}
      (h : Omits defaults members left) : Omits defaults (member :: members) left

namespace Omits

variable {defaults members left : Fields}

theorem refl (defaults members : Fields) : Omits defaults members members := by
  induction members with
  | nil => exact .nil
  | cons member members ih => exact .keep member ih

/-- Members with other default values may have been left out before. -/
theorem trans {first other : Fields} (h : Omits other members first)
    (g : Omits defaults first left) : Omits (defaults ++ other) members left := by
  induction h generalizing left with
  | nil =>
    cases g
    exact .nil
  | keep member _ ih =>
    cases g with
    | keep _ g => exact .keep member (ih g)
    | drop hdefault g => exact .drop (List.mem_append_left _ hdefault) (ih g)
  | drop hdefault _ ih => exact .drop (List.mem_append_right _ hdefault) (ih g)

theorem sublist (h : Omits defaults members left) : left.Sublist members := by
  induction h with
  | nil => exact .slnil
  | keep member _ ih => exact ih.cons_cons member
  | drop _ _ ih => exact ih.cons _

/-- A member is left, or its value is a default. -/
theorem mem_or_mem (h : Omits defaults members left) {member : String × Datum}
    (hmem : member ∈ members) : member ∈ left ∨ member ∈ defaults := by
  induction h with
  | nil => cases hmem
  | keep first _ ih =>
    rcases List.mem_cons.mp hmem with rfl | hmem
    · exact Or.inl List.mem_cons_self
    · exact (ih hmem).imp (List.mem_cons_of_mem _) id
  | drop hdefault _ ih =>
    rcases List.mem_cons.mp hmem with rfl | hmem
    · exact Or.inr hdefault
    · exact ih hmem

end Omits

/-- The only member with a name is the one that is found. -/
theorem Fields.lookup_of_mem {members : Fields} (hnodup : (members.map (·.1)).Nodup) {name : String}
    {value : Datum} (h : (name, value) ∈ members) : members.lookup name = some value := by
  induction members with
  | nil => cases h
  | cons first rest ih =>
    obtain ⟨hfirst, hrest⟩ := List.nodup_cons.mp hnodup
    rcases List.mem_cons.mp h with rfl | hmem
    · exact List.lookup_cons_self
    · have hne : name ≠ first.1 := by
        rintro rfl
        exact hfirst (List.mem_map.mpr ⟨_, hmem, rfl⟩)
      rw [List.lookup_cons, beq_false_of_ne hne]
      exact ih hrest hmem

/-- There is no member with a name that no member of a longer object has with another value. -/
theorem Omits.lookup_of_not_mem {defaults members left : Fields} (h : Omits defaults members left)
    (hnodup : (members.map (·.1)).Nodup) {name : String} {value : Datum}
    (hmem : (name, value) ∈ members) (hleft : (name, value) ∉ left) : left.lookup name = none := by
  refine List.lookup_eq_none_iff.mpr ?_
  rintro ⟨other, found⟩ hfound
  by_contra hsame
  obtain rfl : name = other := by simpa using hsame
  have hvalue := Fields.lookup_of_mem hnodup hmem
  rw [Fields.lookup_of_mem hnodup (h.sublist.mem hfound)] at hvalue
  exact hleft (Option.some.inj hvalue ▸ hfound)

/-! ### Reading what is left -/

section

variable {delivery : Delivery} {rules : List FieldRule} {defaults members left : Fields}

/-- **A record is read from what is left of it**, if no field that was left out must be there. -/
theorem Fields.read_of_omits (record : String) (hfits : Fits delivery rules members)
    (hnodup : (rules.map (·.name)).Nodup) (h : Omits defaults members left)
    (hneeded : ∀ member ∈ defaults, ∀ rule ∈ rules, rule.required → rule.name ≠ member.1) :
    read record rules delivery (.object left) = .ok left := by
  have hnames : (members.map (·.1)).Nodup := by rwa [names_of_fits hfits]
  have hmembers : ofMembers rules delivery [] left = .ok left := by
    refine ofMembers_of_accepted [] ?_ ?_
    · exact hnames.sublist (h.sublist.map _)
    · intro member hmember
      obtain ⟨rule, hrule, hname, hcheck⟩ := rule_of_mem hfits (h.sublist.mem hmember)
      exact ⟨rule, hname ▸ find?_of_mem hnodup hrule, hcheck⟩
  have hcomplete : rules.find? (fun rule => rule.required && (left.lookup rule.name).isNone) =
      none := by
    refine List.find?_eq_none.mpr fun rule hrule => ?_
    by_cases hrequired : rule.required
    · obtain ⟨member, hmember, hsame⟩ : ∃ member ∈ members, member.1 = rule.name := by
        have hname : rule.name ∈ members.map (·.1) := by
          rw [names_of_fits hfits]
          exact List.mem_map_of_mem hrule
        simpa using hname
      have hkept : member ∈ left := by
        refine (h.mem_or_mem hmember).resolve_right fun hdefault => ?_
        exact hneeded member hdefault rule hrule hrequired hsame.symm
      have hfound : left.lookup rule.name = some member.2 :=
        lookup_of_mem (hnames.sublist (h.sublist.map _)) (hsame ▸ hkept)
      simp [hfound]
    · simp [hrequired]
  rw [read, hmembers]
  show complete rules left = .ok left
  rw [complete, hcomplete]

/-- A field that must be there has its value. -/
theorem Omits.get {α : Type} {decode : Decode α} {a : α} {name : String} {value : Datum}
    (h : Omits defaults members left) (hnodup : (members.map (·.1)).Nodup)
    (hmem : (name, value) ∈ members) (hdecode : decode delivery value = .ok a)
    (hneeded : (name, value) ∉ defaults) : left.get delivery name decode = .ok a := by
  have hkept : (name, value) ∈ left := (h.mem_or_mem hmem).resolve_right hneeded
  have hnames : (left.map (·.1)).Nodup := hnodup.sublist (h.sublist.map _)
  exact Fields.get_of_lookup (Fields.lookup_of_mem hnames hkept) hdecode

/-- A field that may be left out has its value, which is the default if it was left out. -/
theorem Omits.getD {α : Type} {decode : Decode α} {a default : α} {name : String} {value : Datum}
    (h : Omits defaults members left) (hnodup : (members.map (·.1)).Nodup)
    (hmem : (name, value) ∈ members) (hdecode : decode delivery value = .ok a)
    (hdefault : (name, value) ∈ defaults → a = default) :
    left.getD delivery name decode default = .ok a := by
  by_cases hkept : (name, value) ∈ left
  · have hnames : (left.map (·.1)).Nodup := hnodup.sublist (h.sublist.map _)
    simp only [Fields.getD, Fields.lookup_of_mem hnames hkept, hdecode]
  · have hdropped : (name, value) ∈ defaults := (h.mem_or_mem hmem).resolve_left hkept
    simp only [Fields.getD, h.lookup_of_not_mem hnodup hmem hkept, hdefault hdropped]

/-- What is left is written without loss. -/
theorem Omits.plain {depth : Nat} (h : Omits defaults members left)
    (hplain : Json.PlainMembers depth members) : Json.PlainMembers depth left := by
  induction h with
  | nil => trivial
  | keep member _ ih => exact ⟨hplain.1, ih hplain.2⟩
  | drop _ _ ih => exact ih hplain.2

end

end Chaperone
