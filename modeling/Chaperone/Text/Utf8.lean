/-!
# Decoding UTF-8 that arrives in pieces

Output is read from pipes in chunks, so a character of several bytes may be cut in two.  A
`Decoder` keeps the beginning of such a character back until the bytes that decide it arrive.
Bytes that no character can contain are replaced: each maximal part that is not well formed gives
one U+FFFD.

`front` finds what stands at the front of some bytes: a character, an ill-formed part, or too little
to tell.  The decoder takes one such front after the other off the bytes that it holds back and
those that arrive, and holds back what it cannot tell.  `lossy` decodes a whole byte string at once;
nothing follows there, so what cannot be told is one more ill-formed part.
-/

namespace Chaperone.Text.Utf8

/-- What stands for bytes that belong to no character. -/
def replacement : Char := '\uFFFD'

/-- How many bytes a character with this first byte has, if there is such a character. -/
def width (lead : UInt8) : Option Nat :=
  if lead < 0x80 then some 1
  else if 0xC2 ≤ lead && lead ≤ 0xDF then some 2
  else if 0xE0 ≤ lead && lead ≤ 0xEF then some 3
  else if 0xF0 ≤ lead && lead ≤ 0xF4 then some 4
  else none

/-- A byte that may stand third or fourth. -/
def isTail (b : UInt8) : Bool := 0x80 ≤ b && b ≤ 0xBF

/-- Whether `b` may stand second after `lead`.  Four first bytes narrow the choice, which excludes
overlong forms, surrogates and values above U+10FFFF. -/
def isSecond (lead b : UInt8) : Bool :=
  if lead = 0xE0 then 0xA0 ≤ b && b ≤ 0xBF
  else if lead = 0xED then 0x80 ≤ b && b ≤ 0x9F
  else if lead = 0xF0 then 0x90 ≤ b && b ≤ 0xBF
  else if lead = 0xF4 then 0x80 ≤ b && b ≤ 0x8F
  else isTail b

/-- The character of two bytes. -/
def char₂ (a b : UInt8) : Char :=
  Char.ofNat ((a.toNat - 0xC0) * 0x40 + (b.toNat - 0x80))

/-- The character of three bytes. -/
def char₃ (a b c : UInt8) : Char :=
  Char.ofNat (((a.toNat - 0xE0) * 0x40 + (b.toNat - 0x80)) * 0x40 + (c.toNat - 0x80))

/-- The character of four bytes. -/
def char₄ (a b c d : UInt8) : Char :=
  Char.ofNat ((((a.toNat - 0xF0) * 0x40 + (b.toNat - 0x80)) * 0x40 + (c.toNat - 0x80)) * 0x40
    + (d.toNat - 0x80))

/-- Whether these bytes may stand after `lead`. -/
def follows (lead : UInt8) : List UInt8 → Bool
  | [] => true
  | b :: more => isSecond lead b && more.all isTail

/-- The character of a first byte and the bytes after it. -/
def assemble (lead : UInt8) : List UInt8 → Char
  | [] => Char.ofNat lead.toNat
  | [b] => char₂ lead b
  | [b, c] => char₃ lead b c
  | b :: c :: d :: _ => char₄ lead b c d

/-! ## The front of a byte string -/

/-- The first bytes, `count` at most, as far as they may stand after `lead`. -/
def continuation (lead : UInt8) : Nat → List UInt8 → List UInt8
  | count + 1, b :: rest =>
    if isSecond lead b then b :: (rest.take count).takeWhile isTail else []
  | _, _ => []

/-- What stands at the front of `lead :: rest`: a character, or U+FFFD for an ill-formed part, with
the number of bytes of `rest` that belong to it.  None if the bytes end before that is decided. -/
def front (lead : UInt8) (rest : List UInt8) : Option (Char × Nat) :=
  match width lead with
  | none => some (replacement, 0)
  | some n =>
    let tail := continuation lead (n - 1) rest
    if tail.length = n - 1 then some (assemble lead tail, tail.length)
    else if tail.length = rest.length then none
    else some (replacement, tail.length)

/-! ## The resumable decoder -/

/-- Decodes bytes, in front of which `text` was decoded.  Gives the bytes at the end that are not
decided, and all text. -/
def advance (text : String) : List UInt8 → List UInt8 × String
  | [] => ([], text)
  | b :: rest =>
    match front b rest with
    | some (c, n) => advance (text.push c) (rest.drop n)
    | none => (b :: rest, text)
termination_by bytes => bytes.length
decreasing_by simp only [List.length_drop, List.length_cons]; omega

/-- Decodes a byte string at the end of a stream.  What is not decided by then is ill formed. -/
def lossyOnto (text : String) : List UInt8 → String
  | [] => text
  | b :: rest =>
    match front b rest with
    | some (c, n) => lossyOnto (text.push c) (rest.drop n)
    | none => text.push replacement
termination_by bytes => bytes.length
decreasing_by simp only [List.length_drop, List.length_cons]; omega

/-- The text of a byte string, with one U+FFFD for each maximal part that is not well formed. -/
def lossy (bytes : List UInt8) : String := lossyOnto "" bytes

/-- Of what is left undecided nothing is decided. -/
theorem advance_fst (text : String) (bytes : List UInt8) :
    advance "" (advance text bytes).1 = ((advance text bytes).1, "") := by
  fun_induction advance text bytes with
  | case1 text => rw [advance]
  | case2 text b rest c n hfront ih => exact ih
  | case3 text b rest hfront => rw [advance, hfront]

/-- A decoder is the bytes that it holds back: the beginning of a character whose end has not
arrived. -/
structure Decoder where
  pending : List UInt8 := []
  undecided : advance "" pending = (pending, "") := by rw [advance]
  deriving DecidableEq, Repr

/-- A decoder that holds nothing back. -/
def Decoder.new : Decoder := {}

instance : Inhabited Decoder := ⟨.new⟩

/-- Takes a chunk and gives all text that it completes. -/
def Decoder.decode (d : Decoder) (chunk : List UInt8) : Decoder × String :=
  let taken := advance "" (d.pending ++ chunk)
  (⟨taken.1, advance_fst ..⟩, taken.2)

theorem Decoder.decode_nil (d : Decoder) : d.decode [] = (d, "") := by
  obtain ⟨pending, hundecided⟩ := d
  simp only [decode, List.append_nil, hundecided]

/-- Ends the stream.  The beginning of a character that never ended is ill formed. -/
def Decoder.finish (d : Decoder) : Decoder × String := (.new, lossy d.pending)

/-! ## Whole texts -/

/-- The text of a byte string that is well formed throughout. -/
def decode? (bytes : List UInt8) : Option String :=
  let text := lossy bytes
  if text.toUTF8.toList = bytes then some text else none

/-- The bytes of a text. -/
def encode (text : String) : List UInt8 := text.toUTF8.toList

end Chaperone.Text.Utf8
