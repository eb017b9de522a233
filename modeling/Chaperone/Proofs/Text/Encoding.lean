import Chaperone.Proofs.Text.Lossy

/-!
# Encoding in UTF-8

The bytes of a text are those of its characters one after the other (`encode_eq_flatMap`), and they
decode to the text (`decode?_encode`).  The byte of a newline stands for newlines only
(`newline_mem_encode_iff`).
-/

namespace Chaperone.Text.Utf8

/-- The bytes of an array from a place on come after those that were taken before. -/
theorem toList_loop (bytes : ByteArray) (i : Nat) (taken : List UInt8) :
    ByteArray.toList.loop bytes i taken = taken.reverse ++ bytes.data.toList.drop i := by
  fun_induction ByteArray.toList.loop bytes i taken with
  | case1 i taken hi ih =>
    have hlength : i < bytes.data.toList.length := hi
    have hget : bytes.get! i = bytes.data.toList[i] := by
      rw [ByteArray.get!, Array.getElem_toList]
      exact getElem!_pos bytes.data i hi
    rw [ih, List.reverse_cons, List.append_assoc, List.drop_eq_getElem_cons hlength, hget]
    rfl
  | case2 i taken hi =>
    have hlength : bytes.data.toList.length ≤ i := Nat.not_lt.mp hi
    rw [List.drop_of_length_le hlength, List.append_nil]

theorem encode_eq_flatMap (text : String) :
    encode text = text.toList.flatMap String.utf8EncodeChar := by
  rw [encode, String.toUTF8_eq_toByteArray, ← String.utf8Encode_toList, List.utf8Encode,
    ByteArray.toList, toList_loop, List.toList_data_toByteArray]
  rfl

theorem encode_append (text more : String) :
    encode (text ++ more) = encode text ++ encode more := by
  simp [encode_eq_flatMap]

theorem spells_encode (text : String) : Spells (encode text) text.toList := by
  rw [encode_eq_flatMap]
  induction text.toList with
  | nil => exact .nil
  | cons c cs ih => exact .character c ih

theorem lossy_encode (text : String) : lossy (encode text) = text :=
  (String.toList_inj.mp (spells_iff.mp (spells_encode text))).symm

/-- The bytes of a text decode to it. -/
theorem decode?_encode (text : String) : decode? (encode text) = some text := by
  rw [decode?, lossy_encode]
  exact if_pos rfl

theorem newline_mem_utf8EncodeChar_iff (c : Char) :
    10 ∈ String.utf8EncodeChar c ↔ c = '\n' := by
  refine ⟨?_, ?_⟩
  · intro h
    have hvalid : c.val.toNat.isValidChar := c.valid
    simp only [Nat.isValidChar] at hvalid
    refine Char.ext (UInt32.toNat_inj.mp (?_ : c.val.toNat = 10))
    simp only [String.utf8EncodeChar] at h
    generalize c.val.toNat = v at hvalid h
    -- All bytes of a character of several bytes are above 127.
    repeat' split at h
    all_goals
      simp [← UInt8.toNat_inj] at h
      omega
  · rintro rfl
    decide

theorem newline_mem_encode_iff (text : String) : 10 ∈ encode text ↔ '\n' ∈ text.toList := by
  simp [encode_eq_flatMap, newline_mem_utf8EncodeChar_iff]

end Chaperone.Text.Utf8
