import Chaperone.Json.Printer
import Chaperone.Json.Reader

/-!
# Reading what was written

A value without floats and not beyond bounds is read back from its written form, whatever text
follows, as long as that text cannot be taken for more of it (`readValue_render`, `scan_render`).
There are no control characters in a written form (`oneLine_render`).

The proof follows the printer.  One character of a string is read back from its escape
(`readString_escapeChar`), so a string is; the digits of a number are read up to the character after
them; and in a container the values are read one after the other, each up to its comma or bracket.
The reader has fuel for twice as many calls as there are characters, and each call but the last of
its chain takes one.
-/

namespace Chaperone.Json

open Text

/-! ### Strings -/

def escaped (cs : List Char) : List Char := cs.flatMap fun c => (escapeChar c).toList

theorem toList_quote (text : String) :
    (quote text).toList = '"' :: (escaped text.toList ++ ['"']) := by
  have hfold (cs : List Char) (done : String) :
      (cs.foldl (fun done c => done ++ escapeChar c) done).toList = done.toList ++ escaped cs := by
    induction cs generalizing done with
    | nil => exact (List.append_nil _).symm
    | cons c cs ih =>
      rw [List.foldl_cons, ih, String.toList_append, List.append_assoc]
      rfl
  rw [quote, String.foldl_eq_foldl_toList, String.toList_append, String.toList_append, hfold]
  rfl

theorem hexFour?_hexDigit :
    ∀ n < 32, hexFour? '0' '0' (hexDigit (n / 16)) (hexDigit (n % 16)) = some n := by
  decide

theorem toList_controlEscape (c : Char) :
    (controlEscape c).toList =
      ['\\', 'u', '0', '0', hexDigit (c.toNat / 16), hexDigit (c.toNat % 16)] := by
  rw [controlEscape, String.toList_append, String.toList_append, String.toList_singleton,
    String.toList_singleton]
  rfl

/-- One character is read back from its escape. -/
theorem readString_escapeChar (read : Option String) (c : Char) (rest : List Char) :
    readString read ((escapeChar c).toList ++ rest) = readString (read.map (·.push c)) rest := by
  rw [escapeChar.eq_def]
  split
  · rfl
  · rfl
  · rfl
  · rfl
  · rfl
  · rfl
  · rfl
  · next hquote hbackslash _ _ _ _ _ =>
    split
    · next hcontrol =>
      -- The code is below 32, so it is no half of a surrogate pair.
      rw [toList_controlEscape]
      simp only [List.cons_append, List.nil_append]
      rw [readString.eq_2, hexFour?_hexDigit c.toNat hcontrol]
      simp only [Char.ofNat_toNat]
      rw [if_neg (by simp; omega), if_neg (by simp; omega)]
    · next hplain =>
      rw [String.toList_singleton, List.singleton_append, readString.eq_4, if_neg hplain]
      · exact hquote
      · intro _ _ _ _ _ h
        exact absurd h hbackslash
      · intro _ _ h
        exact absurd h hbackslash

theorem readString_escaped (acc : String) (cs rest : List Char) :
    readString (some acc) (escaped cs ++ '"' :: rest) =
      some (some (acc ++ String.ofList cs), rest) := by
  induction cs generalizing acc with
  | nil =>
    rw [escaped, List.flatMap_nil, List.nil_append, readString.eq_1, String.ofList_nil,
      String.append_empty]
  | cons c cs ih =>
    rw [escaped, List.flatMap_cons, List.append_assoc, readString_escapeChar]
    refine (ih (acc.push c)).trans ?_
    have htext : acc.push c ++ String.ofList cs = acc ++ String.ofList (c :: cs) := by
      rw [← String.toList_inj]
      simp
    rw [htext]

/-- A string is read back from what stands between its quotes. -/
theorem readString_quote (text : String) (rest : List Char) :
    readString (some "") (escaped text.toList ++ '"' :: rest) = some (some text, rest) := by
  rw [readString_escaped, String.empty_append, String.ofList_toList]

/-! ### Integers -/

/-- What may follow a value: the end of the text, or a character that no number goes on with. -/
def Delimited (rest : List Char) : Prop :=
  ∀ c, rest.head? = some c → c = ',' ∨ c = ']' ∨ c = '}'

theorem delimited_cons {c : Char} (h : c = ',' ∨ c = ']' ∨ c = '}') (rest : List Char) :
    Delimited (c :: rest) := by
  rintro _ ⟨⟩
  exact h

theorem Delimited.cases {rest : List Char} (h : Delimited rest) :
    rest = [] ∨ ∃ more, rest = ',' :: more ∨ rest = ']' :: more ∨ rest = '}' :: more := by
  cases rest with
  | nil => exact Or.inl rfl
  | cons c more =>
    refine Or.inr ⟨more, ?_⟩
    rcases h c rfl with rfl | rfl | rfl
    · exact Or.inl rfl
    · exact Or.inr (Or.inl rfl)
    · exact Or.inr (Or.inr rfl)

theorem digitsValue_toDigits (n : Nat) : digitsValue (Nat.toDigits 10 n) = n := by
  have hstep : (fun (value : Nat) (d : Char) => value * 10 + (d.toNat - 48)) =
      fun value d => 10 * value + (d.toNat - '0'.toNat) := by
    funext value d
    rw [Nat.mul_comm]
    rfl
  rw [digitsValue, hstep, ← Nat.ofDigitChars_eq_foldl]
  exact Nat.ofDigitChars_ten_toDigits

/-- There is no zero in front of other digits. -/
theorem head?_toDigits {n : Nat} (h : 0 < n) : (Nat.toDigits 10 n).head? ≠ some '0' := by
  induction n using Nat.strongRecOn with
  | _ n ih =>
    by_cases hsmall : n < 10
    · rw [Nat.toDigits_of_lt_base hsmall, List.head?_cons]
      intro hzero
      have := Nat.digitChar_eq_zero.mp (Option.some.inj hzero)
      omega
    · have hfirst := ih (n / 10) (by omega) (by omega)
      obtain ⟨d, ds, hdigits⟩ := List.exists_cons_of_ne_nil
        (Nat.toDigits_ne_nil : Nat.toDigits 10 (n / 10) ≠ [])
      rw [hdigits] at hfirst
      rw [Nat.toDigits_of_base_le (by decide) (by omega), hdigits]
      exact hfirst

theorem span_toDigits (n : Nat) {rest : List Char} (h : Delimited rest) :
    (Nat.toDigits 10 n ++ rest).takeWhile Char.isDigit = Nat.toDigits 10 n ∧
      (Nat.toDigits 10 n ++ rest).dropWhile Char.isDigit = rest := by
  have hdigits : ∀ c ∈ Nat.toDigits 10 n, c.isDigit := fun c hc =>
    Nat.isDigit_of_mem_toDigits (by decide) (by decide) hc
  have hend : rest.takeWhile Char.isDigit = [] ∧ rest.dropWhile Char.isDigit = rest := by
    rcases h.cases with rfl | ⟨more, rfl | rfl | rfl⟩
    · exact ⟨rfl, rfl⟩
    · exact ⟨rfl, rfl⟩
    · exact ⟨rfl, rfl⟩
    · exact ⟨rfl, rfl⟩
  refine ⟨?_, ?_⟩
  · rw [List.takeWhile_append_of_pos hdigits, hend.1, List.append_nil]
  · rw [List.dropWhile_append_of_pos hdigits, hend.2]

/-- The digits of a number are read up to the character after them. -/
theorem readDigits_toDigits (negative : Bool) (n : Nat) {rest : List Char} (h : Delimited rest) :
    readDigits negative (Nat.toDigits 10 n ++ rest) =
      some (makeInteger negative (Nat.toDigits 10 n), rest) := by
  obtain ⟨htake, hdrop⟩ := span_toDigits n h
  have hleading : (Nat.toDigits 10 n).length ≠ 1 → (Nat.toDigits 10 n).head? ≠ some '0' := by
    intro hlength
    refine head?_toDigits (Nat.pos_of_ne_zero ?_)
    rintro rfl
    exact hlength rfl
  have hguard : ((Nat.toDigits 10 n).isEmpty ||
      ((Nat.toDigits 10 n).length ≠ 1 && (Nat.toDigits 10 n).head? = some '0')) = false := by
    by_cases hlength : (Nat.toDigits 10 n).length = 1
    · simp [hlength]
    · simp [hleading hlength]
  simp only [readDigits, htake, hdrop]
  rw [if_neg (by simpa using hguard)]
  rcases h.cases with rfl | ⟨more, rfl | rfl | rfl⟩ <;> rfl

def Exact (n : Int) : Prop := -0x8000000000000000 ≤ n ∧ n ≤ maxExact

theorem toList_render_nat (n : Nat) : (render (.int n)).toList = Nat.toDigits 10 n := by
  rw [render, Int.toString_eq_repr, Int.repr_eq_if, if_pos (Int.natCast_nonneg n),
    Int.toNat_natCast, Nat.toList_repr]

theorem toList_render_neg {n : Nat} (h : 0 < n) :
    (render (.int (-n))).toList = '-' :: Nat.toDigits 10 n := by
  rw [render, Int.toString_eq_repr, Int.repr_eq_if, if_neg (by omega), Int.neg_neg,
    Int.toNat_natCast, String.toList_append, Nat.toList_repr]
  rfl

theorem makeInteger_of_nonneg {n : Nat} (h : n ≤ maxExact) :
    makeInteger false (Nat.toDigits 10 n) = .int n := by
  simp only [makeInteger, digitsValue_toDigits]
  rw [if_neg (by decide), if_neg (by omega)]

theorem makeInteger_of_neg {n : Nat} (hpos : 0 < n) (h : n ≤ 0x8000000000000000) :
    makeInteger true (Nat.toDigits 10 n) = .int (-n) := by
  simp only [makeInteger, digitsValue_toDigits]
  rw [if_pos trivial, if_neg (by simp; omega)]

/-! ### Values -/

mutual

/-- A value that is read back from its written form: no number in it is a float or too long, and at
most `depth` containers are open at once. -/
def Plain : Nat → Datum → Prop
  | _, .null | _, .bool _ | _, .string _ => True
  | _, .int n => Exact n
  | depth, .array items => 0 < depth ∧ PlainItems (depth - 1) items
  | depth, .object members => 0 < depth ∧ PlainMembers (depth - 1) members
  | _, .float _ _ | _, .notANumber | _, .beyond => False

def PlainItems : Nat → List Datum → Prop
  | _, [] => True
  | depth, item :: rest => Plain depth item ∧ PlainItems depth rest

def PlainMembers : Nat → List (String × Datum) → Prop
  | _, [] => True
  | depth, (_, value) :: rest => Plain depth value ∧ PlainMembers depth rest

end

theorem toList_render_string (text : String) :
    (render (.string text)).toList = '"' :: (escaped text.toList ++ ['"']) := toList_quote text

theorem toList_render_array (items : List Datum) :
    (render (.array items)).toList = '[' :: ((renderItems items).toList ++ [']']) := by
  rw [render, String.toList_append, String.toList_append]
  rfl

theorem toList_render_object (members : List (String × Datum)) :
    (render (.object members)).toList = '{' :: ((renderMembers members).toList ++ ['}']) := by
  rw [render, String.toList_append, String.toList_append]
  rfl

def tailItems : List Datum → List Char
  | [] => []
  | rest => ',' :: (renderItems rest).toList

theorem toList_renderItems_cons (item : Datum) (rest : List Datum) :
    (renderItems (item :: rest)).toList = (render item).toList ++ tailItems rest := by
  cases rest with
  | nil => rw [renderItems, tailItems, List.append_nil]
  | cons next rest =>
    rw [renderItems, String.toList_append, String.toList_append, List.append_assoc]
    · rfl
    · intro h
      cases h

def tailMembers : List (String × Datum) → List Char
  | [] => []
  | rest => ',' :: (renderMembers rest).toList

theorem toList_renderMembers_cons (name : String) (value : Datum) (rest : List (String × Datum)) :
    (renderMembers ((name, value) :: rest)).toList = '"' ::
      (escaped name.toList ++ '"' :: ':' :: ((render value).toList ++ tailMembers rest)) := by
  have hname : (quote name ++ ":" ++ render value).toList =
      '"' :: (escaped name.toList ++ '"' :: ':' :: (render value).toList) := by
    rw [String.toList_append, String.toList_append, toList_quote]
    simp
  cases rest with
  | nil => rw [renderMembers, hname, tailMembers, List.append_nil]
  | cons next rest =>
    rw [renderMembers, String.toList_append, String.toList_append, hname, tailMembers]
    · simp
    · simp
    · simp

/-! ### Reading a value -/

theorem skip_cons {c : Char} (h : isSeparator c = false) (cs : List Char) :
    skip (c :: cs) = c :: cs := by
  rw [skip, List.dropWhile_cons, h]
  rfl

theorem ne_of_isDigit {c d : Char} (hc : c.isDigit = true) (hd : d.isDigit = false) : c ≠ d := by
  rintro rfl
  rw [hc] at hd
  cases hd

theorem not_isSeparator_of_isDigit {c : Char} (h : c.isDigit = true) : isSeparator c = false := by
  simp [isSeparator, ne_of_isDigit h]

theorem readValue_digits (fuel depth : Nat) {c : Char} (h : c.isDigit = true) (cs : List Char) :
    readValue (fuel + 1) depth (c :: cs) = readDigits false (c :: cs) := by
  rw [readValue.eq_2, skip_cons (not_isSeparator_of_isDigit h)]
  split
  all_goals first
    | rfl
    | next heq => cases heq; cases h

theorem readValue_minus (fuel depth : Nat) (cs : List Char) :
    readValue (fuel + 1) depth ('-' :: cs) = readDigits true cs := by
  rw [readValue.eq_2, skip_cons (by decide)]
  rfl

theorem readValue_string (fuel depth : Nat) (text : String) (rest : List Char) :
    readValue (fuel + 1) depth ('"' :: (escaped text.toList ++ '"' :: rest)) =
      some (.string text, rest) := by
  rw [readValue.eq_2, skip_cons (by decide)]
  exact congrArg (Option.map _) (readString_quote text rest)

theorem ifOpen_of_pos {depth : Nat} (h : 0 < depth) (container : Datum) :
    ifOpen depth container = container := if_neg (by omega)

/-- An array that is not empty. -/
theorem readValue_array (fuel : Nat) {depth : Nat} (hdepth : 0 < depth) {c : Char}
    (hc : isSeparator c = false) (hne : c ≠ ']') {cs rest : List Char} {items : List Datum}
    (h : readItems fuel (depth - 1) (c :: cs) = some (items, rest)) :
    readValue (fuel + 1) depth ('[' :: c :: cs) = some (.array items, rest) := by
  have hbracket : isSeparator '[' = false := by decide
  simp only [readValue.eq_2, skip_cons hbracket, skip_cons hc]
  split
  · next heq => exact absurd (List.cons.inj heq).1 hne
  · simp only [h, Option.map_some, ifOpen_of_pos hdepth]

/-- An object that is not empty. -/
theorem readValue_object (fuel : Nat) {depth : Nat} (hdepth : 0 < depth) {cs rest : List Char}
    {members : List (Option String × Datum)}
    (h : readMembers fuel (depth - 1) ('"' :: cs) = some (members, rest)) :
    readValue (fuel + 1) depth ('{' :: '"' :: cs) = some (makeObject members, rest) := by
  have hopen : readValue (fuel + 1) depth ('{' :: '"' :: cs) =
      (readMembers fuel (depth - 1) ('"' :: cs)).map fun r =>
        (ifOpen depth (makeObject r.1), r.2) := rfl
  simp only [hopen, h, Option.map_some, ifOpen_of_pos hdepth]

theorem exists_digit (n : Nat) :
    ∃ d ds, Nat.toDigits 10 n = d :: ds ∧ d.isDigit = true := by
  obtain ⟨d, ds, h⟩ := List.exists_cons_of_ne_nil (Nat.toDigits_ne_nil : Nat.toDigits 10 n ≠ [])
  have hd : d ∈ Nat.toDigits 10 n := by
    rw [h]
    exact List.mem_cons_self
  exact ⟨d, ds, h, Nat.isDigit_of_mem_toDigits (by decide) (by decide) hd⟩

theorem readValue_int (fuel depth : Nat) {n : Int} (h : Exact n) {rest : List Char}
    (hrest : Delimited rest) :
    readValue (fuel + 1) depth ((render (.int n)).toList ++ rest) = some (.int n, rest) := by
  obtain ⟨hleast, hmost⟩ := h
  by_cases hneg : n < 0
  · obtain ⟨n, rfl⟩ := Int.exists_eq_neg_ofNat (Int.le_of_lt hneg)
    rw [toList_render_neg (by omega), List.cons_append, readValue_minus,
      readDigits_toDigits true n hrest, makeInteger_of_neg (by omega) (by omega)]
  · obtain ⟨n, rfl⟩ := Int.eq_ofNat_of_zero_le (Int.not_lt.mp hneg)
    obtain ⟨d, ds, hdigits, hdigit⟩ := exists_digit n
    have hread := readDigits_toDigits false n hrest
    rw [makeInteger_of_nonneg (by omega)] at hread
    rw [toList_render_nat, ← hread, hdigits]
    exact readValue_digits fuel depth hdigit _

/-- How a written value begins. -/
theorem exists_cons_render {depth : Nat} {d : Datum} (h : Plain depth d) :
    ∃ c cs, (render d).toList = c :: cs ∧ isSeparator c = false ∧ c ≠ ']' := by
  cases d with
  | null => exact ⟨'n', _, rfl, by decide, by decide⟩
  | bool value => cases value <;> exact ⟨_, _, rfl, by decide, by decide⟩
  | int n =>
    by_cases hneg : n < 0
    · obtain ⟨n, rfl⟩ := Int.exists_eq_neg_ofNat (Int.le_of_lt hneg)
      exact ⟨'-', _, toList_render_neg (by omega), by decide, by decide⟩
    · obtain ⟨n, rfl⟩ := Int.eq_ofNat_of_zero_le (Int.not_lt.mp hneg)
      obtain ⟨d, ds, hdigits, hdigit⟩ := exists_digit n
      exact ⟨d, ds, (toList_render_nat n).trans hdigits, not_isSeparator_of_isDigit hdigit,
        ne_of_isDigit hdigit (by decide)⟩
  | string text => exact ⟨'"', _, toList_render_string text, by decide, by decide⟩
  | array items => exact ⟨'[', _, toList_render_array items, by decide, by decide⟩
  | object members => exact ⟨'{', _, toList_render_object members, by decide, by decide⟩
  | float | notANumber | beyond => exact h.elim

/-- No name of an object that was written is lost. -/
theorem makeObject_some (members : List (String × Datum)) :
    makeObject (members.map fun m => (some m.1, m.2)) = .object members := by
  have hall : (members.map fun m => (some m.1, m.2)).mapM
      (fun m : Option String × Datum => m.1.map (·, m.2)) = some members := by
    induction members with
    | nil => rfl
    | cons m members ih =>
      rw [List.map_cons, List.mapM_cons, ih]
      rfl
  rw [makeObject, hall]

theorem readItems_last {fuel depth : Nat} {text rest : List Char} {item : Datum}
    (h : readValue fuel depth text = some (item, ']' :: rest)) :
    readItems (fuel + 1) depth text = some ([item], rest) := by
  rw [readItems, h]
  rfl

theorem readItems_more {fuel depth : Nat} {text rest rest' : List Char} {item : Datum}
    {items : List Datum} (h : readValue fuel depth text = some (item, ',' :: rest))
    (hmore : readItems fuel depth rest = some (items, rest')) :
    readItems (fuel + 1) depth text = some (item :: items, rest') := by
  have hcomma : readItems (fuel + 1) depth text =
      (readItems fuel depth rest).bind fun r => some (item :: r.1, r.2) := by
    rw [readItems, h]
    rfl
  rw [hcomma, hmore]
  rfl

def readMore (fuel depth : Nat) (member : Option String × Datum) (rest : List Char) :
    Option (List (Option String × Datum) × List Char) :=
  match skip rest with
  | '}' :: rest => some ([member], rest)
  | ',' :: rest =>
    (readMembers fuel depth rest).bind fun (members, rest) => some (member :: members, rest)
  | _ => none

theorem readMembers_quote (fuel depth : Nat) (cs : List Char) :
    readMembers (fuel + 1) depth ('"' :: cs) =
      (readString (some "") cs).bind fun (name, rest) =>
        match skip rest with
        | ':' :: rest => (readValue fuel depth rest).bind fun (value, rest) =>
          readMore fuel depth (name, value) rest
        | _ => none := rfl

/-- The name and the value of a member are read, and then what follows decides. -/
theorem readMembers_member {fuel depth : Nat} {text rest : List Char} {value : Datum}
    (name : String) (h : readValue fuel depth text = some (value, rest)) :
    readMembers (fuel + 1) depth ('"' :: (escaped name.toList ++ '"' :: ':' :: text)) =
      readMore fuel depth (some name, value) rest := by
  have hvalue : (readValue fuel depth text).bind
      (fun m => readMore fuel depth (some name, m.1) m.2) =
        readMore fuel depth (some name, value) rest := by
    rw [h]
    rfl
  rw [readMembers_quote, readString_quote]
  exact hvalue

theorem delimited_tailItems (items : List Datum) (rest : List Char) :
    Delimited (tailItems items ++ ']' :: rest) := by
  cases items with
  | nil => exact delimited_cons (Or.inr (Or.inl rfl)) rest
  | cons => exact delimited_cons (Or.inl rfl) _

theorem delimited_tailMembers (members : List (String × Datum)) (rest : List Char) :
    Delimited (tailMembers members ++ '}' :: rest) := by
  cases members with
  | nil => exact delimited_cons (Or.inr (Or.inr rfl)) rest
  | cons => exact delimited_cons (Or.inl rfl) _

theorem length_pos_render {depth : Nat} {d : Datum} (h : Plain depth d) :
    0 < (render d).toList.length := by
  obtain ⟨c, cs, hcons, -⟩ := exists_cons_render h
  rw [hcons]
  exact Nat.succ_pos _

/-! ### The round trip -/

/-- What reading gives for a value that was written. -/
def Returns (d : Datum) : Prop :=
  ∀ (fuel depth : Nat) (rest : List Char), Plain depth d → Delimited rest →
    2 * (render d).toList.length ≤ fuel + 1 →
      readValue fuel depth ((render d).toList ++ rest) = some (d, rest)

def ReturnsItems (items : List Datum) : Prop :=
  ∀ (fuel depth : Nat) (rest : List Char), items ≠ [] → PlainItems depth items →
    2 * (renderItems items).toList.length ≤ fuel →
      readItems fuel depth ((renderItems items).toList ++ ']' :: rest) = some (items, rest)

def ReturnsMembers (members : List (String × Datum)) : Prop :=
  ∀ (fuel depth : Nat) (rest : List Char), members ≠ [] → PlainMembers depth members →
    2 * (renderMembers members).toList.length ≤ fuel →
      readMembers fuel depth ((renderMembers members).toList ++ '}' :: rest) =
        some (members.map fun m => (some m.1, m.2), rest)

theorem ReturnsItems.array {items : List Datum} (h : ReturnsItems items) :
    Returns (.array items) := by
  rintro (_ | fuel) depth rest ⟨hdepth, hitems⟩ - hfuel
  · have := length_pos_render (show Plain depth (.array items) from ⟨hdepth, hitems⟩)
    omega
  rw [toList_render_array] at hfuel ⊢
  cases items with
  | nil =>
    have hempty : readValue (fuel + 1) depth ('[' :: ']' :: rest) =
        some (ifOpen depth (.array []), rest) := rfl
    rw [ifOpen_of_pos hdepth] at hempty
    exact hempty
  | cons item more =>
    simp only [List.length_cons, List.length_append] at hfuel
    obtain ⟨c, cs, hitem, hc, hne⟩ := exists_cons_render hitems.1
    have hread := h fuel (depth - 1) rest (List.cons_ne_nil _ _) hitems (by omega)
    rw [toList_renderItems_cons, hitem, List.append_assoc, List.cons_append] at hread
    rw [toList_renderItems_cons, hitem]
    simp only [List.cons_append, List.append_assoc, List.nil_append]
    exact readValue_array fuel hdepth hc hne hread

theorem ReturnsMembers.object {members : List (String × Datum)} (h : ReturnsMembers members) :
    Returns (.object members) := by
  rintro (_ | fuel) depth rest ⟨hdepth, hmembers⟩ - hfuel
  · have := length_pos_render (show Plain depth (.object members) from ⟨hdepth, hmembers⟩)
    omega
  rw [toList_render_object] at hfuel ⊢
  cases members with
  | nil =>
    have hempty : readValue (fuel + 1) depth ('{' :: '}' :: rest) =
        some (ifOpen depth (.object []), rest) := rfl
    rw [ifOpen_of_pos hdepth] at hempty
    exact hempty
  | cons member more =>
    obtain ⟨name, value⟩ := member
    simp only [List.length_cons, List.length_append] at hfuel
    have hread := h fuel (depth - 1) rest (List.cons_ne_nil _ _) hmembers (by omega)
    rw [toList_renderMembers_cons, List.cons_append] at hread
    rw [toList_renderMembers_cons, ← makeObject_some ((name, value) :: more)]
    simp only [List.cons_append, List.append_assoc, List.nil_append] at hread ⊢
    exact readValue_object fuel hdepth hread

theorem ReturnsItems.cons {item : Datum} {more : List Datum} (hitem : Returns item)
    (hmore : ReturnsItems more) : ReturnsItems (item :: more) := by
  intro fuel depth rest _ hplain hfuel
  obtain ⟨hplain, hplains⟩ := hplain
  have hpos := length_pos_render hplain
  rw [toList_renderItems_cons] at hfuel ⊢
  rw [List.length_append] at hfuel
  obtain ⟨fuel, rfl⟩ : ∃ n, fuel = n + 1 := ⟨fuel - 1, by omega⟩
  have hread := hitem fuel depth _ hplain (delimited_tailItems more rest) (by omega)
  rw [List.append_assoc]
  cases more with
  | nil => exact readItems_last hread
  | cons next more =>
    have hlength : (tailItems (next :: more)).length =
        (renderItems (next :: more)).toList.length + 1 := rfl
    exact readItems_more hread (hmore fuel depth rest (List.cons_ne_nil _ _) hplains (by omega))

theorem ReturnsMembers.cons {name : String} {value : Datum} {more : List (String × Datum)}
    (hvalue : Returns value) (hmore : ReturnsMembers more) :
    ReturnsMembers ((name, value) :: more) := by
  intro fuel depth rest _ hplain hfuel
  obtain ⟨hplain, hplains⟩ := hplain
  have hpos := length_pos_render hplain
  rw [toList_renderMembers_cons] at hfuel ⊢
  simp only [List.length_cons, List.length_append] at hfuel
  obtain ⟨fuel, rfl⟩ : ∃ n, fuel = n + 1 := ⟨fuel - 1, by omega⟩
  have hread := hvalue fuel depth _ hplain (delimited_tailMembers more rest) (by omega)
  have hmember := readMembers_member name hread
  simp only [List.cons_append, List.append_assoc]
  refine hmember.trans ?_
  cases more with
  | nil => rfl
  | cons next more =>
    have hlength : (tailMembers (next :: more)).length =
        (renderMembers (next :: more)).toList.length + 1 := rfl
    have hrest := hmore fuel depth rest (List.cons_ne_nil _ _) hplains (by omega)
    have hcomma : readMore fuel depth (some name, value)
        (tailMembers (next :: more) ++ '}' :: rest) =
          (readMembers fuel depth ((renderMembers (next :: more)).toList ++ '}' :: rest)).bind
            fun (members, rest) => some ((some name, value) :: members, rest) := rfl
    rw [hcomma, hrest]
    rfl

/-- A value whose first character decides what it is. -/
theorem returns_of_succ {d : Datum}
    (h : ∀ fuel depth rest, Plain depth d → Delimited rest →
      readValue (fuel + 1) depth ((render d).toList ++ rest) = some (d, rest)) : Returns d := by
  rintro (_ | fuel) depth rest hplain hrest hfuel
  · have := length_pos_render hplain
    omega
  · exact h fuel depth rest hplain hrest

mutual

/-- **A value is read back from its written form**, up to the text after it. -/
theorem readValue_render : ∀ d : Datum, Returns d
  | .null => returns_of_succ fun _ _ _ _ _ => rfl
  | .bool true => returns_of_succ fun _ _ _ _ _ => rfl
  | .bool false => returns_of_succ fun _ _ _ _ _ => rfl
  | .int _ => returns_of_succ fun fuel depth _ h hrest => readValue_int fuel depth h hrest
  | .string text => by
    refine returns_of_succ fun fuel depth rest _ _ => ?_
    rw [toList_render_string, List.cons_append, List.append_assoc]
    exact readValue_string fuel depth text rest
  | .array items => (readItems_renderItems items).array
  | .object members => (readMembers_renderMembers members).object
  | .float _ _ => fun _ _ _ h => h.elim
  | .notANumber => fun _ _ _ h => h.elim
  | .beyond => fun _ _ _ h => h.elim

theorem readItems_renderItems : ∀ items : List Datum, ReturnsItems items
  | [] => fun _ _ _ hne => absurd rfl hne
  | item :: more => .cons (readValue_render item) (readItems_renderItems more)

theorem readMembers_renderMembers : ∀ members : List (String × Datum), ReturnsMembers members
  | [] => fun _ _ _ hne => absurd rfl hne
  | (_, value) :: more => .cons (readValue_render value) (readMembers_renderMembers more)

end

/-- The text that writes a value gives it back. -/
theorem scan_render {d : Datum} (h : Plain maxDepth d) : scan (render d) = some d := by
  have hread := readValue_render d (2 * (render d).toList.length + 2) maxDepth [] h
    (by intro c hc; cases hc) (by omega)
  rw [List.append_nil] at hread
  simp only [scan, hread]
  rfl

/-- Whatever a decoder gives for a value, it gives for the text that writes the value. -/
theorem decode_render {α : Type} {decode : Decode α} {d : Datum} {a : α} (h : Plain maxDepth d)
    (hdecode : decode .streamed d = .ok a) : Json.decode decode (render d) = .ok a := by
  simp only [Json.decode, scan_render h, hdecode]

/-! ### A written value is one line -/

def OneLine (cs : List Char) : Prop := ∀ c ∈ cs, 0x20 ≤ c.toNat

theorem OneLine.append {cs more : List Char} (h : OneLine cs) (g : OneLine more) :
    OneLine (cs ++ more) := by
  intro c hc
  rcases List.mem_append.mp hc with hc | hc
  · exact h c hc
  · exact g c hc

theorem OneLine.cons {c : Char} {cs : List Char} (hc : 0x20 ≤ c.toNat) (h : OneLine cs) :
    OneLine (c :: cs) := List.forall_mem_cons.mpr ⟨hc, h⟩

theorem oneLine_nil : OneLine [] := nofun

theorem oneLine_of_all {cs : List Char} (h : cs.all fun c => 0x20 ≤ c.toNat) : OneLine cs :=
  fun c hc => of_decide_eq_true (List.all_eq_true.mp h c hc)

theorem oneLine_hexDigit : ∀ n < 16, 0x20 ≤ (hexDigit n).toNat := by decide

theorem oneLine_escapeChar (c : Char) : OneLine (escapeChar c).toList := by
  rw [escapeChar.eq_def]
  split
  iterate 7 exact oneLine_of_all (by decide)
  split
  · next hcontrol =>
    have hhigh := oneLine_hexDigit (c.toNat / 16) (by omega)
    have hlow := oneLine_hexDigit (c.toNat % 16) (by omega)
    rw [toList_controlEscape]
    exact .cons (by decide) (.cons (by decide) (.cons (by decide) (.cons (by decide)
      (.cons hhigh (.cons hlow oneLine_nil)))))
  · next hplain =>
    rw [String.toList_singleton]
    exact .cons (Nat.not_lt.mp hplain) oneLine_nil

theorem oneLine_escaped (cs : List Char) : OneLine (escaped cs) := by
  intro c hc
  obtain ⟨plain, -, hmem⟩ := List.mem_flatMap.mp hc
  exact oneLine_escapeChar plain c hmem

theorem oneLine_digits (n : Nat) : OneLine (Nat.toDigits 10 n) := by
  intro c hc
  have hdigit := Nat.isDigit_of_mem_toDigits (by decide) (by decide) hc
  have hleast : '0'.val ≤ c.val := of_decide_eq_true (Bool.and_eq_true_iff.mp hdigit).1
  exact Nat.le_trans (by decide) (UInt32.le_iff_toNat_le.mp hleast)

mutual

/-- **There is no newline in a written value**, nor another control character. -/
theorem oneLine_render : ∀ (d : Datum) {depth : Nat}, Plain depth d → OneLine (render d).toList
  | .null, _, _ | .bool true, _, _ | .bool false, _, _ => oneLine_of_all (by decide)
  | .int n, _, _ => by
    by_cases hneg : n < 0
    · obtain ⟨n, rfl⟩ := Int.exists_eq_neg_ofNat (Int.le_of_lt hneg)
      rw [toList_render_neg (by omega)]
      exact .cons (by decide) (oneLine_digits n)
    · obtain ⟨n, rfl⟩ := Int.eq_ofNat_of_zero_le (Int.not_lt.mp hneg)
      rw [toList_render_nat]
      exact oneLine_digits n
  | .string text, _, _ => by
    rw [toList_render_string]
    exact .cons (by decide) ((oneLine_escaped _).append (.cons (by decide) oneLine_nil))
  | .array items, _, h => by
    rw [toList_render_array]
    exact .cons (by decide) ((oneLine_renderItems items h.2).append (.cons (by decide) oneLine_nil))
  | .object members, _, h => by
    rw [toList_render_object]
    exact .cons (by decide)
      ((oneLine_renderMembers members h.2).append (.cons (by decide) oneLine_nil))
  | .float _ _, _, h | .notANumber, _, h | .beyond, _, h => h.elim

theorem oneLine_renderItems : ∀ (items : List Datum) {depth : Nat}, PlainItems depth items →
    OneLine (renderItems items).toList
  | [], _, _ => oneLine_nil
  | [item], _, h => oneLine_render item h.1
  | item :: next :: more, _, h => by
    have hmore := oneLine_renderItems (next :: more) h.2
    rw [toList_renderItems_cons]
    exact (oneLine_render item h.1).append (.cons (by decide) hmore)

theorem oneLine_renderMembers : ∀ (members : List (String × Datum)) {depth : Nat},
    PlainMembers depth members → OneLine (renderMembers members).toList
  | [], _, _ => oneLine_nil
  | (name, value) :: more, _, h => by
    have hvalue := oneLine_render value h.1
    have hmore := oneLine_renderMembers more h.2
    have htail : OneLine (tailMembers more) := by
      cases more with
      | nil => exact oneLine_nil
      | cons => exact .cons (by decide) hmore
    rw [toList_renderMembers_cons]
    exact .cons (by decide) ((oneLine_escaped _).append
      (.cons (by decide) (.cons (by decide) (hvalue.append htail))))

end

end Chaperone.Json
