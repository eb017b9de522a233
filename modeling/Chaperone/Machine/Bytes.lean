import Chaperone.Text.Utf8

/-!
# Texts of bytes

Programs name files and pass arguments as strings of bytes, which need not be text.  Inside the
machine such a string is a `String` whose characters stand for bytes, each below 256.
-/

namespace Chaperone.Machine

/-- The bytes of a byte string. -/
def toBytes (s : String) : List UInt8 := s.toList.map fun c => UInt8.ofNat c.toNat

/-- The byte string of bytes. -/
def ofBytes (bytes : List UInt8) : String :=
  bytes.foldl (fun s b => s.push (Char.ofNat b.toNat)) ""

/-- The byte string that writes a text in UTF-8. -/
def ofText (text : String) : String := ofBytes (Text.Utf8.encode text)

end Chaperone.Machine
