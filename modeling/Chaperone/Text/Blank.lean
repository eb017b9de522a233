/-!
# Blank characters

A text is blank when it holds nothing but characters with the Unicode property White_Space.  The
zero-width space and the byte order mark do not have it.
-/

namespace Chaperone.Text

/-- The characters with the property White_Space. -/
def isSpace (c : Char) : Bool :=
  let n := c.toNat
  (0x09 ≤ n && n ≤ 0x0D) || n == 0x20 || n == 0x85 || n == 0xA0 || n == 0x1680 ||
    (0x2000 ≤ n && n ≤ 0x200A) || n == 0x2028 || n == 0x2029 || n == 0x202F || n == 0x205F ||
    n == 0x3000

/-- A text without any other character than white space. -/
def isBlank (text : String) : Bool := text.toList.all isSpace

end Chaperone.Text
