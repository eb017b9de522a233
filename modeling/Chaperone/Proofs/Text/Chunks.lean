import Chaperone.Text.Utf8

/-!
# The text of a stream does not depend on its chunks

A decoder is given the bytes of a stream in chunks.  `HasRead d bytes text` says that `d` has
taken `bytes` in all, in whatever chunks, and has given `text` in all.

* `HasRead.decode`: a further chunk adds its bytes and the text that the decoder gives for it.
* `HasRead.finish`: with the text that the decoder gives at the end, the text is `lossy bytes`.

Both rest on one property of `front`: what is decided stays decided when more bytes arrive
(`front_append`).  So bytes may be held back and decoded with those that follow them
(`advance_append`, `lossyOnto_append`).
-/

namespace Chaperone.Text.Utf8

/-! ### The front of a byte string -/

theorem length_continuation_le (lead : UInt8) (count : Nat) (rest : List UInt8) :
    (continuation lead count rest).length ≤ rest.length ∧
      (continuation lead count rest).length ≤ count := by
  fun_cases continuation lead count rest with
  | case1 count b rest hb =>
    have htaken := (List.takeWhile_prefix isTail (l := rest.take count)).length_le
    rw [List.length_take] at htaken
    simp only [List.length_cons]
    omega
  | case2 | case3 => exact ⟨Nat.zero_le _, Nat.zero_le _⟩

/-- Bytes that arrive later change nothing, unless there were too few and all of them fitted. -/
theorem continuation_append {lead : UInt8} {count : Nat} {rest : List UInt8}
    (h : (continuation lead count rest).length = count ∨
      (continuation lead count rest).length ≠ rest.length) (more : List UInt8) :
    continuation lead count (rest ++ more) = continuation lead count rest := by
  cases count with
  | zero => rfl
  | succ count =>
    cases rest with
    | nil => simp [continuation] at h
    | cons b rest =>
      simp only [List.cons_append, continuation] at h ⊢
      split
      · next hb =>
        rw [if_pos hb] at h
        simp only [List.length_cons, Nat.add_right_cancel_iff, ne_eq] at h
        rw [List.take_append, List.takeWhile_append]
        split
        · next hall =>
          -- All bytes that were taken fit, so there were enough of them.
          rw [List.length_take] at hall
          have henough : count - rest.length = 0 := by omega
          rw [henough, List.take_zero, List.takeWhile_nil, List.append_nil,
            (List.takeWhile_prefix isTail).eq_of_length (by rw [hall, List.length_take])]
        · rfl
      · rfl

/-- **What is decided stays decided.** -/
theorem front_append {lead : UInt8} {rest : List UInt8} {found : Char × Nat}
    (h : front lead rest = some found) (more : List UInt8) :
    front lead (rest ++ more) = some found ∧ found.2 ≤ rest.length := by
  simp only [front] at h ⊢
  cases hwidth : width lead with
  | none =>
    simp only [hwidth, Option.some.injEq] at h ⊢
    subst h
    exact ⟨rfl, Nat.zero_le _⟩
  | some n =>
    simp only [hwidth] at h ⊢
    obtain ⟨hle, -⟩ := length_continuation_le lead (n - 1) rest
    split at h
    · next hfull =>
      cases h
      rw [continuation_append (Or.inl hfull), if_pos hfull]
      exact ⟨rfl, hle⟩
    · next hshort =>
      split at h
      · cases h
      · next hne =>
        cases h
        have hmore : (continuation lead (n - 1) rest).length ≠ (rest ++ more).length := by
          rw [List.length_append]
          omega
        rw [continuation_append (Or.inr hne), if_neg hshort, if_neg hmore]
        exact ⟨rfl, hle⟩

/-! ### Bytes that are decoded later -/

section
variable {b : UInt8} {rest : List UInt8} {c : Char} {n : Nat}

theorem advance_of_front (h : front b rest = some (c, n)) (text : String) :
    advance text (b :: rest) = advance (text.push c) (rest.drop n) := by
  rw [advance, h]

theorem advance_of_undecided (h : front b rest = none) (text : String) :
    advance text (b :: rest) = (b :: rest, text) := by
  rw [advance, h]

theorem lossyOnto_of_front (h : front b rest = some (c, n)) (text : String) :
    lossyOnto text (b :: rest) = lossyOnto (text.push c) (rest.drop n) := by
  rw [lossyOnto, h]

theorem lossyOnto_of_undecided (h : front b rest = none) (text : String) :
    lossyOnto text (b :: rest) = text.push replacement := by
  rw [lossyOnto, h]

end

theorem append_push (t u : String) (c : Char) : (t ++ u).push c = t ++ u.push c := by
  rw [String.push_eq_append, String.push_eq_append, String.append_assoc]

/-- What was decoded before stays in front. -/
theorem advance_append_text (t u : String) (bytes : List UInt8) :
    advance (t ++ u) bytes = ((advance u bytes).1, t ++ (advance u bytes).2) := by
  fun_induction advance u bytes with
  | case1 u => rw [advance]
  | case2 u b rest c n hfront ih =>
    rw [advance_of_front hfront, append_push, ih]
  | case3 u b rest hfront => rw [advance_of_undecided hfront]

theorem lossyOnto_append_text (t u : String) (bytes : List UInt8) :
    lossyOnto (t ++ u) bytes = t ++ lossyOnto u bytes := by
  fun_induction lossyOnto u bytes with
  | case1 u => rw [lossyOnto]
  | case2 u b rest c n hfront ih =>
    rw [lossyOnto_of_front hfront, append_push, ih]
  | case3 u b rest hfront => rw [lossyOnto_of_undecided hfront, append_push]

/-- Bytes that were not decided are decoded with those that follow them. -/
theorem advance_append (text : String) (bytes more : List UInt8) :
    advance text (bytes ++ more) =
      advance (advance text bytes).2 ((advance text bytes).1 ++ more) := by
  fun_induction advance text bytes with
  | case1 text => rfl
  | case2 text b rest c n hfront ih =>
    obtain ⟨hmore, hle⟩ := front_append hfront more
    rw [List.cons_append, advance_of_front hmore, List.drop_append_of_le_length hle, ih]
  | case3 text b rest hfront => rfl

theorem lossyOnto_append (text : String) (bytes more : List UInt8) :
    lossyOnto text (bytes ++ more) =
      lossyOnto (advance text bytes).2 ((advance text bytes).1 ++ more) := by
  fun_induction advance text bytes with
  | case1 text => rfl
  | case2 text b rest c n hfront ih =>
    obtain ⟨hmore, hle⟩ := front_append hfront more
    rw [List.cons_append, lossyOnto_of_front hmore, List.drop_append_of_le_length hle, ih]
  | case3 text b rest hfront => rfl

/-! ### Decoders -/

namespace Decoder

/-- Having been given `bytes` in all, the decoder has given `text` in all. -/
def HasRead (d : Decoder) (bytes : List UInt8) (text : String) : Prop :=
  advance "" bytes = (d.pending, text)

theorem hasRead_new : HasRead .new [] "" := by
  rw [HasRead, advance]
  rfl

variable {d : Decoder} {bytes : List UInt8} {text : String}

theorem HasRead.decode (h : d.HasRead bytes text) (chunk : List UInt8) :
    (d.decode chunk).1.HasRead (bytes ++ chunk) (text ++ (d.decode chunk).2) := by
  rw [HasRead, advance_append, h, ← String.append_empty (s := text), advance_append_text,
    String.append_empty]
  rfl

/-- Whatever follows, the text goes on with that of what is held back and what follows. -/
theorem HasRead.lossy_append (h : d.HasRead bytes text) (more : List UInt8) :
    lossy (bytes ++ more) = text ++ lossy (d.pending ++ more) := by
  rw [lossy, lossyOnto_append, h, ← String.append_empty (s := text), lossyOnto_append_text,
    String.append_empty]
  rfl

/-- **At the end of the stream the text is that of all its bytes.** -/
theorem HasRead.finish (h : d.HasRead bytes text) : text ++ d.finish.2 = lossy bytes := by
  have hall := h.lossy_append []
  rw [List.append_nil, List.append_nil] at hall
  exact hall.symm

end Decoder

end Chaperone.Text.Utf8
