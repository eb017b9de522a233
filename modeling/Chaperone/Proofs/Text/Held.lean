import Chaperone.Proofs.Text.Lossy

/-!
# What a decoder holds back

A decoder holds back no more than it must.  The bytes that it was given are those that spell the
text it has given, and then those that it holds back (`exists_taken`).  What it holds back begins a
character and is not all of it (`unfinished_of_undecided`), so that two different texts may still
come of it: that character, or one U+FFFD if nothing follows.  All that is decided has been given.

* `Decoder.text_of_chunks`: all this after any chunks, and what an end gives then.
-/

namespace Chaperone.Text.Utf8

/-! ### What is not decided -/

/-- The bytes begin a character and are not all of it. -/
def Unfinished (part : List UInt8) : Prop :=
  part ≠ [] ∧ ∃ c : Char, part <+: String.utf8EncodeChar c ∧ part ≠ String.utf8EncodeChar c

theorem unfinished_of_undecided {lead : UInt8} {tail : List UInt8} (h : front lead tail = none) :
    Unfinished (lead :: tail) := by
  obtain ⟨n, hwidth, hn, hfollows⟩ := follows_of_undecided h
  obtain ⟨c, hc⟩ := begins_cons_iff.mpr ⟨n, hwidth, Nat.lt_of_succ_lt hn, hfollows⟩
  refine ⟨List.cons_ne_nil lead tail, c, hc, ?_⟩
  -- The character has as many bytes as its first one announces.
  obtain ⟨lead', tail', hchar, hwidth', -, -⟩ := utf8EncodeChar_eq_cons c
  intro hall
  obtain ⟨rfl, rfl⟩ := List.cons.inj (hall.trans hchar)
  obtain rfl := Option.some.inj (hwidth.symm.trans hwidth')
  exact Nat.lt_irrefl _ hn

theorem length_of_undecided {lead : UInt8} {tail : List UInt8} (h : front lead tail = none) :
    (lead :: tail).length ≤ 3 := by
  obtain ⟨n, hwidth, hn, -⟩ := follows_of_undecided h
  rw [width_eq_some_iff] at hwidth
  rw [List.length_cons]
  omega

/-- Decoding goes as far as it can. -/
theorem undecided_advance (text : String) (bytes : List UInt8) :
    (advance text bytes).1 = [] ∨
      ∃ lead tail, (advance text bytes).1 = lead :: tail ∧ front lead tail = none := by
  fun_induction advance text bytes with
  | case1 text => exact Or.inl rfl
  | case2 text b rest c n hfront ih => exact ih
  | case3 text b rest hfront => exact Or.inr ⟨b, rest, rfl, hfront⟩

/-- What stands at the front stands there too if less follows. -/
theorem Front.of_append {lead : UInt8} {tail more rest : List UInt8} {c : Char}
    (h : Front lead tail (more ++ rest) c) : Front lead tail more c := by
  cases h with
  | character hwidth hfollows => exact .character hwidth hfollows
  | illFormed hbegins hend =>
    refine .illFormed hbegins fun n hwidth => ⟨(hend n hwidth).1, fun b hb => ?_⟩
    refine (hend n hwidth).2 b ?_
    rw [List.head?_append, hb]
    rfl

/-- The bytes are those that spell the text that comes of them, and then those that are left. -/
theorem exists_taken (text : String) (bytes : List UInt8) :
    ∃ taken chars, bytes = taken ++ (advance text bytes).1 ∧ Spells taken chars ∧
      (advance text bytes).2.toList = text.toList ++ chars := by
  fun_induction advance text bytes with
  | case1 text => exact ⟨[], [], rfl, .nil, (List.append_nil _).symm⟩
  | case2 text lead rest c n hfront ih =>
    obtain ⟨tail, more, rfl, rfl, hfound⟩ := exists_front hfront
    rw [List.drop_left] at ih ⊢
    obtain ⟨taken, chars, hmore, hspells, htext⟩ := ih
    refine ⟨lead :: tail ++ taken, c :: chars, ?_, ?_, ?_⟩
    · rw [List.append_assoc, ← hmore, List.cons_append]
    · exact (hmore ▸ hfound).of_append.spells hspells
    · rw [htext, String.toList_push, List.append_assoc, List.singleton_append]
  | case3 text b rest hfront => exact ⟨[], [], rfl, .nil, (List.append_nil _).symm⟩

/-- Among the characters that the bytes begin is one that is not U+FFFD itself. -/
theorem Unfinished.exists_ne {part : List UInt8} (h : Unfinished part) :
    ∃ c : Char, c ≠ replacement ∧ part <+: String.utf8EncodeChar c := by
  obtain ⟨-, c, hprefix, hne⟩ := h
  by_cases hc : c = replacement
  · subst hc
    -- U+FFC0 differs from it in the last byte.
    have hlast : part <+: [0xEF, 0xBF] := (List.prefix_concat_iff.mp hprefix).resolve_left hne
    exact ⟨'\uFFC0', by decide, hlast.trans (List.prefix_append [0xEF, 0xBF] [0x80])⟩
  · exact ⟨c, hc, hprefix⟩

theorem lossy_utf8EncodeChar (c : Char) : (lossy (String.utf8EncodeChar c)).toList = [c] := by
  have hspells : Spells (String.utf8EncodeChar c ++ []) [c] := .character c .nil
  rw [List.append_nil] at hspells
  exact (spells_iff.mp hspells).symm

/-! ### Decoders -/

namespace Decoder

/-- A decoder holds back nothing, or bytes of which nothing is decided. -/
theorem pending_cases (d : Decoder) :
    d.pending = [] ∨ ∃ lead tail, d.pending = lead :: tail ∧ front lead tail = none := by
  have hends := undecided_advance "" d.pending
  rwa [d.undecided] at hends

/-- At most one U+FFFD is left for the end. -/
theorem toList_finish (d : Decoder) :
    d.finish.2.toList = if d.pending = [] then [] else [replacement] := by
  rcases d.pending_cases with hnone | ⟨lead, tail, hpending, hfront⟩
  · rw [finish, hnone, if_pos rfl, lossy, lossyOnto]
    rfl
  · rw [finish, hpending, if_neg (List.cons_ne_nil lead tail), lossy,
      lossyOnto_of_undecided hfront]
    rfl

variable {d : Decoder} {bytes : List UInt8} {text : String}

/-- **All that the bytes decide has been given**: the text goes as far as all texts agree that the
bytes may still come to. -/
theorem HasRead.prefix_iff (h : d.HasRead bytes text) (settled : List Char) :
    settled <+: text.toList ↔
      ∀ more chars, Spells (bytes ++ more) chars → settled <+: chars := by
  constructor
  · intro hsettled more chars hchars
    rw [spells_iff.mp hchars, h.lossy_append, String.toList_append]
    exact List.prefix_append_of_prefix hsettled
  · intro hall
    -- The text when nothing follows, and when that follows which ends a given character.
    have hnothing := hall [] _ (spells_iff.mpr rfl)
    have hcharacter (c : Char) (hc : d.pending <+: String.utf8EncodeChar c) :
        settled <+: text.toList ++ [c] := by
      obtain ⟨more, hmore⟩ := hc
      have hchars := hall more _ (spells_iff.mpr rfl)
      rwa [h.lossy_append, hmore, String.toList_append, lossy_utf8EncodeChar] at hchars
    rw [List.append_nil, ← h.finish, String.toList_append, toList_finish] at hnothing
    rcases d.pending_cases with hnone | ⟨lead, tail, hpending, hfront⟩
    · rwa [if_pos hnone, List.append_nil] at hnothing
    · obtain ⟨c, hne, hc⟩ := (unfinished_of_undecided hfront).exists_ne
      rw [hpending, if_neg (List.cons_ne_nil lead tail)] at hnothing
      rcases List.prefix_concat_iff.mp hnothing with rfl | hsettled
      · -- Both texts would have to go on with U+FFFD.
        have hlast := (List.prefix_append_right_inj _).mp (hcharacter c (hpending ▸ hc))
        exact absurd (List.cons_prefix_cons.mp hlast).1.symm hne
      · exact hsettled

theorem HasRead.serveAll (h : d.HasRead bytes text) (chunks : List (List UInt8)) :
    (d.serveAll (chunks.map .chunk)).1.HasRead (bytes ++ chunks.flatten)
      (text ++ String.join (d.serveAll (chunks.map .chunk)).2) := by
  induction chunks generalizing d bytes text with
  | nil =>
    rw [List.flatten_nil, List.append_nil]
    exact (String.append_empty (s := text)).symm ▸ h
  | cons chunk chunks ih =>
    have hrest := ih (h.decode chunk)
    rw [List.append_assoc, String.append_assoc] at hrest
    simp only [List.map_cons, Decoder.serveAll, serve, List.flatten_cons]
    rwa [String.join_cons]

/-- **A decoder holds back as little as possible.** -/
theorem text_of_chunks (chunks : List (List UInt8)) :
    let given := Decoder.new.serveAll (chunks.map .chunk)
    let held := given.1.pending
    let text := (String.join given.2).toList
    (∃ taken, chunks.flatten = taken ++ held ∧ Spells taken text) ∧
      (held = [] ∨ held.length ≤ 3 ∧ Unfinished held) ∧
      (∀ settled, settled <+: text ↔
        ∀ more chars, Spells (chunks.flatten ++ more) chars → settled <+: chars) ∧
      given.1.finish.2.toList = if held = [] then [] else [replacement] := by
  intro given held text
  have hread : given.1.HasRead chunks.flatten (String.join given.2) := by
    have hall := hasRead_new.serveAll chunks
    rwa [List.nil_append, String.empty_append] at hall
  refine ⟨?_, ?_, hread.prefix_iff, toList_finish given.1⟩
  · obtain ⟨taken, chars, hbytes, hspells, htext⟩ := exists_taken "" chunks.flatten
    rw [hread] at hbytes htext
    have hchars : text = chars := htext
    exact ⟨taken, hbytes, hchars ▸ hspells⟩
  · rcases given.1.pending_cases with hnone | ⟨lead, tail, hpending, hfront⟩
    · exact Or.inl hnone
    · have hheld : held = lead :: tail := hpending
      rw [hheld]
      exact Or.inr ⟨length_of_undecided hfront, unfinished_of_undecided hfront⟩

/-- A letter and two of the three bytes of the euro sign: the letter is given and is all that is
decided. -/
theorem text_of_chunks_euro :
    (String.join (Decoder.new.serveAll [.chunk [0x61, 0xE2], .chunk [0x82]]).2).toList = ['a'] ∧
      (Decoder.new.serveAll [.chunk [0x61, 0xE2], .chunk [0x82]]).1.pending = [0xE2, 0x82] ∧
      (∀ settled, settled <+: ['a'] ↔
        ∀ more chars, Spells ([0x61, 0xE2, 0x82] ++ more) chars → settled <+: chars) := by
  have htext :
      (String.join (Decoder.new.serveAll [.chunk [0x61, 0xE2], .chunk [0x82]]).2).toList = ['a'] :=
    by decide +kernel
  obtain ⟨-, -, hdecided, -⟩ := text_of_chunks [[0x61, 0xE2], [0x82]]
  exact ⟨htext, by decide +kernel, htext ▸ hdecided⟩

end Decoder

end Chaperone.Text.Utf8
