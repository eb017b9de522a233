import Chaperone.Proofs.Text.Chunks

/-!
# The text that a byte string spells

`Spells bytes chars` says which characters a byte string stands for.  It knows of UTF-8 only what
the bytes of each character are: at the front of the bytes stands a character, or else an ill-formed
part, which is as long as the beginning of a character can be there, or one byte long where no
character begins.  Each such part stands for one U+FFFD.

The decoder works with a table of first and second bytes instead.  That the table is right is
`begins_cons_iff`, and that looking ahead by it finds what stands at the front is `exists_front`.

* `spells_iff`: every byte string spells one text, the one that `lossy` gives.
* `Decoder.text_of_segment`: whatever a decoder is asked for, in whatever chunks, between one end
  and the next it gives the text that the bytes spell, and afterwards it is as good as new.
-/

namespace Chaperone.Text.Utf8

/-! ### What bytes spell -/

def Begins (part : List UInt8) : Prop := ∃ c : Char, part <+: String.utf8EncodeChar c

/-- At the front of `part ++ rest` stands no character.  Of the bytes there `part` is the longest
beginning of a character, or a single byte. -/
structure IllFormed (part rest : List UInt8) : Prop where
  ill : ∀ c : Char, ¬ String.utf8EncodeChar c <+: part ++ rest
  part_ne_nil : part ≠ []
  begins : Begins part ∨ part.length = 1
  longest : ∀ longer, longer <+: part ++ rest → Begins longer → longer.length ≤ part.length

/-- The bytes stand for these characters. -/
inductive Spells : List UInt8 → List Char → Prop
  | nil : Spells [] []
  | character (c : Char) {rest : List UInt8} {chars : List Char} :
      Spells rest chars → Spells (String.utf8EncodeChar c ++ rest) (c :: chars)
  | illFormed {part rest : List UInt8} {chars : List Char} :
      IllFormed part rest → Spells rest chars → Spells (part ++ rest) (replacement :: chars)

/-! ### The table of first and second bytes -/

theorem isTail_iff {b : UInt8} : isTail b = true ↔ 0x80 ≤ b.toNat ∧ b.toNat ≤ 0xBF := by
  simp [isTail, UInt8.le_iff_toNat_le]

theorem isSecond_iff {lead b : UInt8} :
    isSecond lead b = true ↔ (0x80 ≤ b.toNat ∧ b.toNat ≤ 0xBF) ∧
      (lead.toNat = 0xE0 → 0xA0 ≤ b.toNat) ∧ (lead.toNat = 0xED → b.toNat ≤ 0x9F) ∧
      (lead.toNat = 0xF0 → 0x90 ≤ b.toNat) ∧ (lead.toNat = 0xF4 → b.toNat ≤ 0x8F) := by
  simp only [isSecond, ← UInt8.toNat_inj]
  repeat' split
  all_goals simp_all [UInt8.le_iff_toNat_le, isTail]
  all_goals omega

theorem width_eq_some_iff {lead : UInt8} {n : Nat} :
    width lead = some n ↔
      (n = 1 ∧ lead.toNat < 0x80) ∨ (n = 2 ∧ 0xC2 ≤ lead.toNat ∧ lead.toNat ≤ 0xDF) ∨
        (n = 3 ∧ 0xE0 ≤ lead.toNat ∧ lead.toNat ≤ 0xEF) ∨
        (n = 4 ∧ 0xF0 ≤ lead.toNat ∧ lead.toNat ≤ 0xF4) := by
  simp only [width, UInt8.le_iff_toNat_le, UInt8.lt_iff_toNat_lt, Bool.and_eq_true,
    decide_eq_true_eq]
  repeat' split
  all_goals simp_all
  all_goals omega

theorem follows_append {lead : UInt8} {tail more : List UInt8}
    (h : follows lead (tail ++ more) = true) : follows lead tail = true := by
  cases tail with
  | nil => rfl
  | cons b tail =>
    simp only [List.cons_append, follows, List.all_append, Bool.and_eq_true] at h ⊢
    exact ⟨h.1, h.2.1⟩

/-- Bytes that may stand after `lead` go on for as long as one likes. -/
theorem exists_follows {lead : UInt8} {tail : List UInt8} (h : follows lead tail = true)
    (n : Nat) : ∃ more, more.length = n ∧ follows lead (tail ++ more) = true := by
  have htails (k : Nat) : (List.replicate k (0x80 : UInt8)).all isTail = true :=
    List.all_replicate.trans (by cases k <;> rfl)
  cases tail with
  | cons b tail =>
    simp only [follows, Bool.and_eq_true] at h
    refine ⟨List.replicate n 0x80, List.length_replicate, ?_⟩
    simp only [List.cons_append, follows, List.all_append, h.1, h.2, htails, Bool.and_self]
  | nil =>
    cases n with
    | zero => exact ⟨[], rfl, rfl⟩
    | succ n =>
      have hsecond : ∃ b : UInt8, isSecond lead b = true := by
        by_cases hE0 : lead.toNat = 0xE0
        · exact ⟨0xA0, isSecond_iff.mpr (by simp [hE0])⟩
        · by_cases hF0 : lead.toNat = 0xF0
          · exact ⟨0x90, isSecond_iff.mpr (by simp [hF0])⟩
          · exact ⟨0x80, isSecond_iff.mpr (by simp [hE0, hF0])⟩
      obtain ⟨b, hb⟩ := hsecond
      refine ⟨b :: List.replicate n 0x80, ?_, ?_⟩
      · rw [List.length_cons, List.length_replicate]
      · simp only [List.nil_append, follows, hb, htails, Bool.and_self]

theorem toNat_val_ofNat {n : Nat} (h : n.isValidChar) : (Char.ofNat n).val.toNat = n := by
  rw [Char.ofNat, dif_pos h]
  rfl

/-- As many bytes as the first one announces are the bytes of a character. -/
theorem utf8EncodeChar_assemble {lead : UInt8} {tail : List UInt8}
    (hwidth : width lead = some (tail.length + 1)) (hfollows : follows lead tail = true) :
    String.utf8EncodeChar (assemble lead tail) = lead :: tail := by
  rw [width_eq_some_iff] at hwidth
  match tail, hwidth, hfollows with
  | [], hwidth, _ =>
    simp only [List.length_nil] at hwidth
    have hval : (Char.ofNat lead.toNat).val.toNat = lead.toNat :=
      toNat_val_ofNat (Or.inl (by omega))
    simp only [assemble, String.utf8EncodeChar, hval]
    rw [if_pos (by omega), UInt8.ofNat_toNat]
  | [b], hwidth, hfollows =>
    simp only [List.length_cons, List.length_nil, follows, List.all_nil, Bool.and_true,
      isSecond_iff] at hwidth hfollows
    have hval : (char₂ lead b).val.toNat = (lead.toNat - 0xC0) * 0x40 + (b.toNat - 0x80) :=
      toNat_val_ofNat (Or.inl (by omega))
    simp only [assemble, String.utf8EncodeChar, hval]
    rw [if_neg (by omega), if_pos (by omega)]
    simp only [List.cons.injEq, ← UInt8.toNat_inj, UInt8.toNat_ofNat', and_true]
    omega
  | [b, c], hwidth, hfollows =>
    simp only [List.length_cons, List.length_nil, follows, List.all_cons, List.all_nil,
      Bool.and_true, Bool.and_eq_true, isSecond_iff, isTail_iff] at hwidth hfollows
    have hval : (char₃ lead b c).val.toNat =
        ((lead.toNat - 0xE0) * 0x40 + (b.toNat - 0x80)) * 0x40 + (c.toNat - 0x80) :=
      toNat_val_ofNat (by simp only [Nat.isValidChar]; omega)
    simp only [assemble, String.utf8EncodeChar, hval]
    rw [if_neg (by omega), if_neg (by omega), if_pos (by omega)]
    simp only [List.cons.injEq, ← UInt8.toNat_inj, UInt8.toNat_ofNat', and_true]
    omega
  | [b, c, d], hwidth, hfollows =>
    simp only [List.length_cons, List.length_nil, follows, List.all_cons, List.all_nil,
      Bool.and_true, Bool.and_eq_true, isSecond_iff, isTail_iff] at hwidth hfollows
    have hval : (char₄ lead b c d).val.toNat =
        (((lead.toNat - 0xF0) * 0x40 + (b.toNat - 0x80)) * 0x40 + (c.toNat - 0x80)) * 0x40
          + (d.toNat - 0x80) :=
      toNat_val_ofNat (by simp only [Nat.isValidChar]; omega)
    simp only [assemble, String.utf8EncodeChar, hval]
    rw [if_neg (by omega), if_neg (by omega), if_neg (by omega)]
    simp only [List.cons.injEq, ← UInt8.toNat_inj, UInt8.toNat_ofNat', and_true]
    omega
  | b :: c :: d :: e :: more, hwidth, _ =>
    simp only [List.length_cons] at hwidth
    omega

/-- The bytes of a character are as many as the first one announces. -/
theorem utf8EncodeChar_eq_cons (c : Char) :
    ∃ lead tail, String.utf8EncodeChar c = lead :: tail ∧ width lead = some (tail.length + 1) ∧
      follows lead tail = true ∧ assemble lead tail = c := by
  have hvalid : c.val.toNat.isValidChar := c.valid
  simp only [Nat.isValidChar] at hvalid
  have hchar (n : Nat) (h : n = c.val.toNat) : Char.ofNat n = c := by
    subst h
    exact Char.ofNat_toNat c
  simp only [String.utf8EncodeChar]
  generalize c.val.toNat = v at hvalid hchar
  by_cases h₁ : v ≤ 0x7F
  · rw [if_pos h₁]
    refine ⟨_, _, rfl, ?_, rfl, ?_⟩
    · simp [width_eq_some_iff]
      omega
    · simp only [assemble]
      exact hchar _ (by simp; omega)
  · rw [if_neg h₁]
    by_cases h₂ : v ≤ 0x7FF
    · rw [if_pos h₂]
      refine ⟨_, _, rfl, ?_, ?_, ?_⟩
      · simp [width_eq_some_iff]
        omega
      · simp [follows, isSecond_iff]
        omega
      · simp only [assemble, char₂]
        exact hchar _ (by simp; omega)
    · rw [if_neg h₂]
      by_cases h₃ : v ≤ 0xFFFF
      · rw [if_pos h₃]
        refine ⟨_, _, rfl, ?_, ?_, ?_⟩
        · simp [width_eq_some_iff]
          omega
        · simp [follows, isSecond_iff, isTail_iff]
          omega
        · simp only [assemble, char₃]
          exact hchar _ (by simp; omega)
      · rw [if_neg h₃]
        refine ⟨_, _, rfl, ?_, ?_, ?_⟩
        · simp [width_eq_some_iff]
          omega
        · simp [follows, isSecond_iff, isTail_iff]
          omega
        · simp only [assemble, char₄]
          exact hchar _ (by simp; omega)

/-- **The table is right**: bytes begin a character when they stand in it. -/
theorem begins_cons_iff {lead : UInt8} {tail : List UInt8} :
    Begins (lead :: tail) ↔
      ∃ n, width lead = some n ∧ tail.length < n ∧ follows lead tail = true := by
  constructor
  · rintro ⟨c, more, hmore⟩
    obtain ⟨lead', tail', hc, hwidth, hfollows, -⟩ := utf8EncodeChar_eq_cons c
    rw [hc, List.cons_append] at hmore
    obtain ⟨rfl, rfl⟩ := List.cons.inj hmore
    refine ⟨_, hwidth, ?_, follows_append hfollows⟩
    rw [List.length_append]
    omega
  · rintro ⟨n, hwidth, hlength, hfollows⟩
    obtain ⟨more, hmore, hall⟩ := exists_follows hfollows (n - 1 - tail.length)
    have hn : n = (tail ++ more).length + 1 := by
      rw [List.length_append]
      omega
    refine ⟨assemble lead (tail ++ more), more, ?_⟩
    rw [utf8EncodeChar_assemble (hn ▸ hwidth) hall, List.cons_append]

/-- Of two characters at one place both are the same. -/
theorem utf8EncodeChar_prefix_unique {c c' : Char} {bytes : List UInt8}
    (h : String.utf8EncodeChar c <+: bytes) (h' : String.utf8EncodeChar c' <+: bytes) : c = c' := by
  obtain ⟨lead, tail, hc, hwidth, -, rfl⟩ := utf8EncodeChar_eq_cons c
  obtain ⟨lead', tail', hc', hwidth', -, rfl⟩ := utf8EncodeChar_eq_cons c'
  rw [hc] at h
  rw [hc'] at h'
  obtain ⟨rest, rfl⟩ := h
  obtain ⟨hlead, htail⟩ := List.cons_prefix_cons.mp h'
  subst hlead
  have hlength : tail'.length = tail.length :=
    Nat.succ.inj (Option.some.inj (hwidth'.symm.trans hwidth))
  have hprefix : tail <+: tail ++ rest := List.prefix_append _ _
  rw [(List.prefix_of_prefix_length_le htail hprefix (Nat.le_of_eq hlength)).eq_of_length hlength]

/-! ### What stands at the front -/

/-- What stands at the front of `lead :: tail ++ more`, where `tail` belongs to it. -/
inductive Front (lead : UInt8) (tail more : List UInt8) : Char → Prop
  | character : width lead = some (tail.length + 1) → follows lead tail = true →
      Front lead tail more (assemble lead tail)
  | illFormed : tail = [] ∨ Begins (lead :: tail) →
      (∀ n, width lead = some n → tail.length + 1 < n ∧
        ∀ b, more.head? = some b → follows lead (tail ++ [b]) = false) →
      Front lead tail more replacement

theorem width_pos {lead : UInt8} {n : Nat} (h : width lead = some n) : 0 < n := by
  rw [width_eq_some_iff] at h
  omega

/-- The bytes that `continuation` takes may stand after `lead`, and the next one may not, unless it
has taken as many as it may. -/
theorem exists_continuation (lead : UInt8) (count : Nat) (rest : List UInt8) :
    ∃ more, rest = continuation lead count rest ++ more ∧
      follows lead (continuation lead count rest) = true ∧
      ((continuation lead count rest).length < count →
        ∀ b, more.head? = some b → follows lead (continuation lead count rest ++ [b]) = false) := by
  fun_cases continuation lead count rest with
  | case1 count b rest hb =>
    have hall : ((rest.take count).takeWhile isTail).all isTail = true := List.all_takeWhile
    refine ⟨(rest.take count).dropWhile isTail ++ rest.drop count, ?_, ?_, ?_⟩
    · rw [List.cons_append, ← List.append_assoc, List.takeWhile_append_dropWhile,
        List.take_append_drop]
    · simp only [follows, hb, hall, Bool.and_self]
    · intro hshort next hnext
      cases hleft : (rest.take count).dropWhile isTail with
      | nil =>
        -- All bytes fit, and there are no more.
        have htaken := List.takeWhile_append_dropWhile (p := isTail) (l := rest.take count)
        rw [hleft, List.append_nil] at htaken
        rw [htaken, List.length_cons, List.length_take] at hshort
        rw [hleft, List.nil_append, List.drop_eq_nil_of_le (by omega)] at hnext
        cases hnext
      | cons b' left =>
        have hbad : isTail b' = false := by
          have hhead := List.head?_dropWhile_not isTail (rest.take count)
          rw [hleft] at hhead
          exact Bool.not_eq_true _ ▸ by simpa using hhead
        rw [hleft, List.cons_append, List.head?_cons, Option.some.injEq] at hnext
        subst hnext
        simp [follows, hbad]
  | case2 count b rest hb =>
    refine ⟨b :: rest, rfl, rfl, ?_⟩
    rintro - next ⟨⟩
    simp [follows, hb]
  | case3 count rest hneither =>
    refine ⟨rest, rfl, rfl, ?_⟩
    intro hshort next hnext
    cases count with
    | zero => exact absurd hshort (Nat.lt_irrefl 0)
    | succ count =>
      cases rest with
      | nil => cases hnext
      | cons b rest => exact (hneither count b rest rfl rfl).elim

/-- What `front` gives stands at the front, and what it counts belongs to it. -/
theorem exists_front {lead : UInt8} {rest : List UInt8} {c : Char} {n : Nat}
    (h : front lead rest = some (c, n)) :
    ∃ tail more, rest = tail ++ more ∧ n = tail.length ∧ Front lead tail more c := by
  simp only [front] at h
  cases hwidth : width lead with
  | none =>
    simp only [hwidth, Option.some.injEq] at h
    cases h
    exact ⟨[], rest, rfl, rfl, .illFormed (Or.inl rfl) (by simp [hwidth])⟩
  | some m =>
    simp only [hwidth] at h
    have hpos : 0 < m := width_pos hwidth
    obtain ⟨more, hrest, hfollows, hnext⟩ := exists_continuation lead (m - 1) rest
    obtain ⟨-, hle⟩ := length_continuation_le lead (m - 1) rest
    generalize continuation lead (m - 1) rest = tail at h hrest hfollows hnext hle
    refine ⟨tail, more, hrest, ?_⟩
    split at h
    · next hfull =>
      cases h
      exact ⟨rfl, .character (by rw [hwidth, hfull, Nat.sub_add_cancel hpos]) hfollows⟩
    · next hshort =>
      split at h
      · cases h
      · cases h
        have hlength : tail.length + 1 < m := by omega
        refine ⟨rfl, .illFormed (Or.inr (begins_cons_iff.mpr ⟨m, hwidth, by omega, hfollows⟩)) ?_⟩
        intro k hk
        obtain rfl : m = k := Option.some.inj (hwidth.symm.trans hk)
        exact ⟨hlength, hnext (by omega)⟩

/-- Where nothing is decided all bytes belong to one character, and more must follow. -/
theorem follows_of_undecided {lead : UInt8} {rest : List UInt8} (h : front lead rest = none) :
    ∃ n, width lead = some n ∧ rest.length + 1 < n ∧ follows lead rest = true := by
  simp only [front] at h
  cases hwidth : width lead with
  | none => simp [hwidth] at h
  | some n =>
    simp only [hwidth] at h
    refine ⟨n, rfl, ?_⟩
    obtain ⟨more, hrest, hfollows, -⟩ := exists_continuation lead (n - 1) rest
    obtain ⟨-, hle⟩ := length_continuation_le lead (n - 1) rest
    generalize continuation lead (n - 1) rest = tail at h hrest hfollows hle
    have hall : tail.length ≠ n - 1 ∧ tail.length = rest.length := by
      split at h
      · cases h
      · next hshort =>
        split at h
        · next hlength => exact ⟨hshort, hlength⟩
        · cases h
    have hsame : tail = rest := (hrest ▸ List.prefix_append tail more).eq_of_length hall.2
    subst hsame
    exact ⟨by omega, hfollows⟩

/-- An ill-formed part ends where the next byte cannot go on with it. -/
theorem illFormed_of_front {lead : UInt8} {tail more : List UInt8}
    (hbegins : tail = [] ∨ Begins (lead :: tail))
    (hend : ∀ n, width lead = some n → tail.length + 1 < n ∧
      ∀ b, more.head? = some b → follows lead (tail ++ [b]) = false) :
    IllFormed (lead :: tail) more := by
  -- A longer beginning would go on with the next byte.
  have hlongest (longer : List UInt8) (hlonger : longer <+: lead :: tail ++ more)
      (hb : Begins longer) : longer.length ≤ (lead :: tail).length := by
    cases longer with
    | nil => exact Nat.zero_le _
    | cons lead' tail' =>
      rw [List.cons_append] at hlonger
      obtain ⟨rfl, htail⟩ := List.cons_prefix_cons.mp hlonger
      obtain ⟨n, hwidth, -, hfollows⟩ := begins_cons_iff.mp hb
      refine Nat.le_of_not_lt fun hlong => ?_
      simp only [List.length_cons, Nat.add_lt_add_iff_right] at hlong
      have hmore : tail.length < (tail ++ more).length :=
        Nat.lt_of_lt_of_le hlong htail.length_le
      rw [List.length_append] at hmore
      obtain ⟨b, more, rfl⟩ := List.exists_cons_of_length_pos (Nat.pos_of_lt_add_right hmore)
      have hnext : tail ++ [b] <+: tail' := by
        refine List.prefix_of_prefix_length_le ?_ htail ?_
        · exact ⟨more, by rw [List.append_assoc, List.singleton_append]⟩
        · rw [List.length_append, List.length_singleton]
          exact hlong
      obtain ⟨more', rfl⟩ := hnext
      have hstop := (hend n hwidth).2 b rfl
      rw [follows_append hfollows] at hstop
      exact Bool.noConfusion hstop
  refine ⟨?_, List.cons_ne_nil _ _, ?_, hlongest⟩
  · intro c hc
    obtain ⟨lead', tail', hbytes, hwidth, -, -⟩ := utf8EncodeChar_eq_cons c
    have hlength := hlongest _ hc ⟨c, List.prefix_refl _⟩
    rw [hbytes] at hc hlength
    rw [List.cons_append] at hc
    obtain ⟨rfl, -⟩ := List.cons_prefix_cons.mp hc
    have hshort := (hend _ hwidth).1
    simp only [List.length_cons] at hlength
    omega
  · rcases hbegins with rfl | hbegins
    · exact Or.inr rfl
    · exact Or.inl hbegins

/-! ### Every byte string spells one text -/

/-- What stands at the front, and what the bytes after it spell. -/
theorem Front.spells {lead : UInt8} {tail more : List UInt8} {c : Char} {chars : List Char}
    (h : Front lead tail more c) (hmore : Spells more chars) :
    Spells (lead :: tail ++ more) (c :: chars) := by
  cases h with
  | character hwidth hfollows =>
    rw [← utf8EncodeChar_assemble hwidth hfollows]
    exact .character _ hmore
  | illFormed hbegins hend => exact .illFormed (illFormed_of_front hbegins hend) hmore

theorem spells_lossyOnto (text : String) (bytes : List UInt8) :
    ∃ chars, Spells bytes chars ∧ (lossyOnto text bytes).toList = text.toList ++ chars := by
  fun_induction lossyOnto text bytes with
  | case1 text => exact ⟨[], .nil, (List.append_nil _).symm⟩
  | case2 text lead rest c n hfront ih =>
    obtain ⟨tail, more, rfl, rfl, hfound⟩ := exists_front hfront
    rw [List.drop_left] at ih ⊢
    obtain ⟨chars, hspells, htext⟩ := ih
    refine ⟨c :: chars, hfound.spells hspells, ?_⟩
    rw [htext, String.toList_push, List.append_assoc, List.singleton_append]
  | case3 text lead rest hfront =>
    -- All bytes begin one character, and no more follow.
    obtain ⟨n, hwidth, hlength, hfollows⟩ := follows_of_undecided hfront
    have hfound : Front lead rest [] replacement := by
      refine .illFormed (Or.inr (begins_cons_iff.mpr ⟨n, hwidth, by omega, hfollows⟩)) ?_
      intro m hm
      obtain rfl : n = m := Option.some.inj (hwidth.symm.trans hm)
      refine ⟨hlength, ?_⟩
      rintro b ⟨⟩
    refine ⟨[replacement], ?_, String.toList_push ..⟩
    have hspells := hfound.spells .nil
    rwa [List.append_nil] at hspells

theorem IllFormed.eq {part part' rest rest' : List UInt8} (h : IllFormed part rest)
    (h' : IllFormed part' rest') (heq : part ++ rest = part' ++ rest') :
    part = part' ∧ rest = rest' := by
  have hle {p p' r r' : List UInt8} (h : IllFormed p r) (h' : IllFormed p' r')
      (heq : p ++ r = p' ++ r') : p'.length ≤ p.length := by
    rcases h'.begins with hbegins | hone
    · exact h.longest p' (heq ▸ List.prefix_append _ _) hbegins
    · rw [hone]
      exact List.length_pos_iff.mpr h.part_ne_nil
  exact List.append_inj heq (Nat.le_antisymm (hle h' h heq.symm) (hle h h' heq))

/-- **No byte string spells two texts.** -/
theorem Spells.unique {bytes : List UInt8} {chars chars' : List Char} (h : Spells bytes chars)
    (h' : Spells bytes chars') : chars = chars' := by
  induction h generalizing chars' with
  | nil =>
    generalize hnil : ([] : List UInt8) = bytes at h'
    cases h' with
    | nil => rfl
    | character c _ =>
      exact absurd (List.append_eq_nil_iff.mp hnil.symm).1 String.utf8EncodeChar_ne_nil
    | illFormed hpart _ => exact absurd (List.append_eq_nil_iff.mp hnil.symm).1 hpart.part_ne_nil
  | @character c rest chars _ ih =>
    generalize hbytes : String.utf8EncodeChar c ++ rest = bytes at h'
    cases h' with
    | nil => exact absurd (List.append_eq_nil_iff.mp hbytes).1 String.utf8EncodeChar_ne_nil
    | @character c' rest' chars' hrest =>
      obtain rfl : c = c' := utf8EncodeChar_prefix_unique (List.prefix_append _ rest)
        (hbytes ▸ List.prefix_append _ rest')
      obtain rfl := List.append_cancel_left hbytes
      rw [ih hrest]
    | illFormed hpart _ => exact absurd (hbytes ▸ List.prefix_append _ rest) (hpart.ill c)
  | @illFormed part rest chars hpart _ ih =>
    generalize hbytes : part ++ rest = bytes at h'
    cases h' with
    | nil => exact absurd (List.append_eq_nil_iff.mp hbytes).1 hpart.part_ne_nil
    | @character c rest' chars' _ =>
      exact absurd (hbytes ▸ List.prefix_append _ rest') (hpart.ill c)
    | illFormed hpart' hrest =>
      obtain ⟨rfl, rfl⟩ := hpart.eq hpart' hbytes
      rw [ih hrest]

/-- **Every byte string spells one text**, the one that `lossy` gives. -/
theorem spells_iff {bytes : List UInt8} {chars : List Char} :
    Spells bytes chars ↔ chars = (lossy bytes).toList := by
  obtain ⟨chars', hspells, htext⟩ := spells_lossyOnto "" bytes
  have hlossy : (lossy bytes).toList = chars' := htext
  rw [hlossy]
  constructor
  · intro h
    exact h.unique hspells
  · rintro rfl
    exact hspells

/-! ### Decoders -/

inductive Decoder.Request where
  | chunk (bytes : List UInt8)
  | finish
  deriving DecidableEq, Repr

namespace Decoder

def serve (d : Decoder) : Request → Decoder × String
  | .chunk bytes => d.decode bytes
  | .finish => d.finish

def serveAll (d : Decoder) : List Request → Decoder × List String
  | [] => (d, [])
  | request :: rest =>
    let (d, text) := d.serve request
    let (d, texts) := d.serveAll rest
    (d, text :: texts)

/-- What was asked for between one end and the next: all bytes, and all text that was given, that of
the end included.  Before the first of the requests stand `bytes` and `text`. -/
def segments (bytes : List UInt8) (text : String) :
    List (Request × String) → List (List UInt8 × String)
  | [] => []
  | (.chunk chunk, t) :: rest => segments (bytes ++ chunk) (text ++ t) rest
  | (.finish, t) :: rest => (bytes, text ++ t) :: segments [] "" rest

theorem serveAll_append (d : Decoder) (requests more : List Request) :
    d.serveAll (requests ++ more) =
      let first := d.serveAll requests
      let rest := first.1.serveAll more
      (rest.1, first.2 ++ rest.2) := by
  induction requests generalizing d with
  | nil => rfl
  | cons request requests ih => simp only [List.cons_append, serveAll, ih]

theorem lossy_of_mem_segments {d : Decoder} {bytes : List UInt8} {text : String}
    (h : d.HasRead bytes text) (requests : List Request) {segment : List UInt8 × String}
    (hsegment : segment ∈ segments bytes text (requests.zip (d.serveAll requests).2)) :
    segment.2 = lossy segment.1 := by
  induction requests generalizing d bytes text with
  | nil => cases hsegment
  | cons request requests ih =>
    simp only [serveAll, List.zip_cons_cons] at hsegment
    cases request with
    | chunk chunk => exact ih (h.decode chunk) hsegment
    | finish =>
      rcases List.mem_cons.mp hsegment with rfl | hsegment
      · exact h.finish
      · refine ih hasRead_new ?_
        exact hsegment

/-- **The text of a segment is the one that its bytes spell**, whatever the chunks and whatever was
asked for before.  After an end the decoder goes on as a new one. -/
theorem text_of_segment (requests : List Request) :
    (∀ segment ∈ segments [] "" (requests.zip (Decoder.new.serveAll requests).2), ∀ chars,
      Spells segment.1 chars ↔ chars = segment.2.toList) ∧
    ∀ more, Decoder.new.serveAll (requests ++ .finish :: more) =
      let rest := Decoder.new.serveAll more
      (rest.1, (Decoder.new.serveAll (requests ++ [.finish])).2 ++ rest.2) := by
  refine ⟨?_, ?_⟩
  · intro segment hsegment chars
    rw [lossy_of_mem_segments hasRead_new requests hsegment]
    exact spells_iff
  · intro more
    have hend (d : Decoder) : d.serveAll (.finish :: more) =
        ((Decoder.new.serveAll more).1,
          (d.serveAll [.finish]).2 ++ (Decoder.new.serveAll more).2) := by
      simp only [serveAll, serve, finish, List.singleton_append]
    simp only [serveAll_append, hend, List.append_assoc]

/-- The euro sign in two chunks, of which the second ends with a byte that begins a character. -/
theorem text_of_segment_euro :
    ([0xE2, 0x82, 0xAC, 0xF0], "€\uFFFD") ∈ segments [] "" (List.zip
        [.chunk [0xE2, 0x82], .chunk [0xAC, 0xF0], .finish, .chunk [0x9F]]
        (Decoder.new.serveAll
          [.chunk [0xE2, 0x82], .chunk [0xAC, 0xF0], .finish, .chunk [0x9F]]).2) ∧
      Spells [0xE2, 0x82, 0xAC, 0xF0] ['€', '\uFFFD'] := by
  have hsegments : segments [] "" (List.zip
      [.chunk [0xE2, 0x82], .chunk [0xAC, 0xF0], .finish, .chunk [0x9F]]
      (Decoder.new.serveAll
        [.chunk [0xE2, 0x82], .chunk [0xAC, 0xF0], .finish, .chunk [0x9F]]).2) =
      [([0xE2, 0x82, 0xAC, 0xF0], "€\uFFFD")] := by
    decide +kernel
  have hmem := hsegments ▸ List.mem_singleton_self ([0xE2, 0x82, 0xAC, 0xF0], "€\uFFFD")
  exact ⟨hmem, ((text_of_segment _).1 _ hmem _).mpr rfl⟩

end Decoder

end Chaperone.Text.Utf8
