import Chaperone.Document.Decode
import Mathlib.Data.List.Forall2

/-!
# Records whose members are as their rules want them

An object that has the fields of a record in the order of its rules, each with a value that its rule
accepts, is read as these fields (`Fields.read_of_fits`).  If a tag stands in front of them, they
are read as a record of the kind that the tag names (`Decode.tagged_of_front`).
-/

namespace Chaperone

/-- The members of an object are the fields of a record in the order of its rules, with values that
the rules accept. -/
def Fits (delivery : Delivery) (rules : List FieldRule) (members : Fields) : Prop :=
  List.Forall₂ (fun rule member => rule.name = member.1 ∧ rule.check delivery member.2 = .ok ())
    rules members

/-- A rule of a field that must be there accepts what its decoder decodes. -/
theorem check_needed {α : Type} {decode : Decode α} {delivery : Delivery} {d : Datum} {a : α}
    (name : String) (h : decode delivery d = .ok a) :
    (FieldRule.needed name decode).check delivery d = .ok () := by
  simp only [FieldRule.needed, h]
  rfl

namespace Fields

variable {delivery : Delivery} {rules : List FieldRule} {members : Fields}

theorem names_of_fits (h : Fits delivery rules members) :
    members.map (·.1) = rules.map (·.name) := by
  induction h with
  | nil => rfl
  | cons hfirst _ ih => rw [List.map_cons, List.map_cons, ih, hfirst.1]

theorem find?_of_mem (hnodup : (rules.map (·.name)).Nodup) {rule : FieldRule} (h : rule ∈ rules) :
    rules.find? (·.name == rule.name) = some rule := by
  induction rules with
  | nil => cases h
  | cons first rest ih =>
    obtain ⟨hfirst, hrest⟩ := List.nodup_cons.mp hnodup
    rcases List.mem_cons.mp h with rfl | hmem
    · exact List.find?_cons_of_pos (beq_self_eq_true _)
    · have hne : first.name ≠ rule.name := by
        intro heq
        exact hfirst (List.mem_map.mpr ⟨rule, hmem, heq.symm⟩)
      rw [List.find?_cons_of_neg (by simpa using hne)]
      exact ih hrest hmem

theorem rule_of_mem (h : Fits delivery rules members) {member : String × Datum}
    (hmem : member ∈ members) :
    ∃ rule ∈ rules, rule.name = member.1 ∧ rule.check delivery member.2 = .ok () := by
  induction h with
  | nil => cases hmem
  | @cons rule first rules rest hfirst _ ih =>
    rcases List.mem_cons.mp hmem with rfl | hmem
    · exact ⟨rule, List.mem_cons_self, hfirst⟩
    · obtain ⟨rule', hrule', hfits⟩ := ih hmem
      exact ⟨rule', List.mem_cons_of_mem _ hrule', hfits⟩

/-- Members that were not there before and that are accepted are kept in their order. -/
theorem ofMembers_of_accepted (seen : Fields) (hnodup : ((seen ++ members).map (·.1)).Nodup)
    (h : ∀ member ∈ members, ∃ rule, rules.find? (·.name == member.1) = some rule ∧
      rule.check delivery member.2 = .ok ()) :
    ofMembers rules delivery seen members = .ok (seen ++ members) := by
  induction members generalizing seen with
  | nil => rw [ofMembers, List.append_nil]
  | cons first rest ih =>
    obtain ⟨name, value⟩ := first
    obtain ⟨⟨rule, hrule, hcheck⟩, hrest⟩ := List.forall_mem_cons.mp h
    have hnew : seen.lookup name = none := by
      refine List.lookup_eq_none_iff.mpr fun member hmember => ?_
      have hne : member.1 ≠ name := by
        rw [List.map_append] at hnodup
        exact (List.nodup_append.mp hnodup).2.2 _ (List.mem_map_of_mem hmember) _
          List.mem_cons_self
      simpa using hne.symm
    have hnext : ((seen ++ [(name, value)] ++ rest).map (·.1)).Nodup := by
      rwa [List.append_assoc]
    have hall := ih (seen ++ [(name, value)]) hnext hrest
    rw [List.append_assoc] at hall
    rw [ofMembers, hrule]
    simp only [hnew, hcheck]
    exact hall

theorem complete_of_fits (h : Fits delivery rules members) :
    complete rules members = .ok members := by
  have hnone : rules.find? (fun rule => rule.required && (members.lookup rule.name).isNone) =
      none := by
    refine List.find?_eq_none.mpr fun rule hrule => ?_
    have hname : rule.name ∈ members.map (·.1) := by
      rw [names_of_fits h]
      exact List.mem_map_of_mem hrule
    obtain ⟨member, hmember, hsame⟩ := List.mem_map.mp hname
    have hfound : (members.lookup rule.name).isSome :=
      List.lookup_isSome_iff.mpr ⟨member, hmember, by simpa using hsame.symm⟩
    simp [Option.isNone_eq_false_iff.mpr hfound]
  rw [complete, hnone]

/-- An object with the fields of a record is read as these. -/
theorem read_of_fits (record : String) (h : Fits delivery rules members)
    (hnodup : (rules.map (·.name)).Nodup) :
    read record rules delivery (.object members) = .ok members := by
  have hmembers : ofMembers rules delivery [] members = .ok members := by
    refine ofMembers_of_accepted [] ?_ ?_
    · rwa [List.nil_append, names_of_fits h]
    · intro member hmem
      obtain ⟨rule, hrule, hname, hcheck⟩ := rule_of_mem h hmem
      exact ⟨rule, hname ▸ find?_of_mem hnodup hrule, hcheck⟩
  rw [read, hmembers]
  exact complete_of_fits h

theorem get_of_lookup {α : Type} {fields : Fields} {name : String} {value : Datum}
    {decode : Decode α} {a : α} (h : fields.lookup name = some value)
    (hdecode : decode delivery value = .ok a) : fields.get delivery name decode = .ok a := by
  simp only [get, h, hdecode]

end Fields

/-! ### Tagged records -/

namespace Decode

variable {α β : Type} {name : String} {known : List (String × α)} {delivery : Delivery}
  {value : Datum} {meaning : α} {others : List (String × Datum)}

theorem takeTag_of_found (done : List (String × Datum)) (h : ∀ member ∈ others, member.1 ≠ name) :
    takeTag name known delivery (some meaning) done others =
      .ok (meaning, done.reverse ++ others) := by
  induction others generalizing done with
  | nil => rw [takeTag, List.append_nil]
  | cons first rest ih =>
    obtain ⟨member, value⟩ := first
    obtain ⟨hfirst, hrest⟩ := List.forall_mem_cons.mp h
    rw [takeTag, if_neg hfirst, ih _ hrest, List.reverse_cons, List.append_assoc]
    rfl

/-- If the tag stands in front and nowhere else, the other members are the content. -/
theorem tagged_of_front (enumeration : String) (content : α → Datum → Decoded β)
    (htag : tag known delivery value = .ok meaning) (hothers : ∀ member ∈ others, member.1 ≠ name)
    (hheld : Datum.membersHeld others = true) :
    tagged enumeration name known content delivery (.object ((name, value) :: others)) =
      content meaning (.object others) := by
  have htake : takeTag name known delivery none [] ((name, value) :: others) =
      .ok (meaning, others) := by
    rw [takeTag, if_pos rfl]
    simp only [htag]
    exact takeTag_of_found [] hothers
  have haside : setAside (Datum.membersHeld others) = .ok () := if_pos hheld
  have hset : (setAside (Datum.membersHeld others)).bind
      (fun () => content meaning (.object others)) = content meaning (.object others) := by
    rw [haside]
    rfl
  rw [tagged, htake]
  exact hset

end Decode

end Chaperone
