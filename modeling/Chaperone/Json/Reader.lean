import Chaperone.Document.Decode

/-!
# Reading JSON

`scan` accepts exactly the texts of the JSON grammar.  A value is beyond what can be held when
containers nest more than 127 deep, an escaped surrogate lacks its partner, or a number exceeds the
range of double precision; `read` refuses a text with such a value in it, and `decode` only where
the value matters.  An integer that fits in 64 bits (signed when negative) stays exact; any other
number is a float, built from at most the first 64 bits of its digits.
-/

namespace Chaperone.Json

open Number

/-- The four characters that may stand between tokens. -/
def isSeparator (c : Char) : Bool := c == ' ' || c == '\n' || c == '\t' || c == '\r'

/-- The text from the next token on. -/
def skip (text : List Char) : List Char := text.dropWhile isSeparator

/-! ## Strings -/

/-- The value of a hexadecimal digit. -/
def hexValue? (c : Char) : Option Nat :=
  if '0' ≤ c && c ≤ '9' then some (c.toNat - 48)
  else if 'a' ≤ c && c ≤ 'f' then some (c.toNat - 87)
  else if 'A' ≤ c && c ≤ 'F' then some (c.toNat - 55)
  else none

/-- The value of four hexadecimal digits. -/
def hexFour? (a b c d : Char) : Option Nat := do
  return ((← hexValue? a) * 16 + (← hexValue? b)) * 256 + (← hexValue? c) * 16 + (← hexValue? d)

/-- The character that a one-letter escape stands for. -/
def simpleEscape? : Char → Option Char
  | '"' => some '"'
  | '\\' => some '\\'
  | '/' => some '/'
  | 'b' => some '\x08'
  | 'f' => some '\x0c'
  | 'n' => some '\n'
  | 'r' => some '\r'
  | 't' => some '\t'
  | _ => none

/-- The rest of a string after its opening quote, and the text after its closing quote.  The string
is lost when a surrogate lacks its partner. -/
def readString (read : Option String) : List Char → Option (Option String × List Char)
  | '"' :: rest => some (read, rest)
  | '\\' :: 'u' :: a :: b :: c :: d :: rest =>
    match hexFour? a b c d with
    | none => none
    | some high =>
      if 0xD800 ≤ high && high < 0xDC00 then
        match rest with
        | '\\' :: 'u' :: e :: f :: g :: h :: rest =>
          match hexFour? e f g h with
          | none => none
          | some low =>
            if 0xDC00 ≤ low && low < 0xE000 then
              readString (read.map (·.push
                (Char.ofNat (0x10000 + (high - 0xD800) * 0x400 + (low - 0xDC00))))) rest
            else readString none rest
        | rest => readString none rest
      else if 0xDC00 ≤ high && high < 0xE000 then readString none rest
      else readString (read.map (·.push (Char.ofNat high))) rest
  | '\\' :: c :: rest =>
    match simpleEscape? c with
    | some plain => readString (read.map (·.push plain)) rest
    | none => none
  | c :: rest => if c.toNat < 0x20 then none else readString (read.map (·.push c)) rest
  | [] => none

/-! ## Numbers -/

/-- The largest integer that is kept exact. -/
def maxExact : Nat := 0xFFFFFFFFFFFFFFFF

/-- Takes digits while the number still fits in 64 bits.  Gives it with the digits left over. -/
def significand (value : Nat) : List Char → Nat × List Char
  | [] => (value, [])
  | d :: rest =>
    let next := value * 10 + (d.toNat - 48)
    if maxExact < next then (value, d :: rest) else significand next rest

/-- The double nearest to the product of two doubles. -/
def times (x y : Binary64) : Binary64 :=
  let (a, b) := x.toQuotient
  let (c, d) := y.toQuotient
  nearest (a * c) (b * d)

/-- The double nearest to the quotient of two doubles. -/
def ended (x y : Binary64) : Binary64 :=
  let (a, b) := x.toQuotient
  let (c, d) := y.toQuotient
  nearest (a * d) (b * c)

/-- The largest power of ten in the range of double precision. -/
def maxPower : Nat := 308

/-- The product of a double and a power of ten, or their quotient when the power is negative, the
power rounded first; none above the range.  A power below the range is divided by in steps, of
which two leave nothing of a 64-bit number. -/
def scaleTen (value : Binary64) (power : Int) : Option Binary64 :=
  if 0 ≤ power then
    if maxPower < power.natAbs then
      if value = .finite 0 0 then some value else none
    else
      match times value (ofDecimal 1 power.natAbs) with
      | .infinite => none
      | scaled => some scaled
  else if power.natAbs ≤ maxPower then some (ended value (ofDecimal 1 power.natAbs))
  else
    let value := ended value (ofDecimal 1 maxPower)
    if power.natAbs ≤ 2 * maxPower then some (ended value (ofDecimal 1 (power.natAbs - maxPower)))
    else some (.finite 0 0)

/-- The value of a run of digits. -/
def digitsValue (digits : List Char) : Nat :=
  digits.foldl (fun value d => value * 10 + (d.toNat - 48)) 0

/-- A float of an integral part, a fraction and an exponent.  Digits beyond 64 bits count as zeros
before the point and are dropped after it; an exponent of more than 32 bits is out of range, or
gives zero. -/
def makeFloat (negative : Bool) (whole fraction : List Char) (exponent : Int) : Datum :=
  let (value, left) := significand 0 whole
  let (value, leftFraction) := significand value fraction
  if 2147483647 < exponent.natAbs then
    if value ≠ 0 && 0 < exponent then .beyond else .float negative (.finite 0 0)
  else
    let power := exponent + left.length - (fraction.length - leftFraction.length : Nat)
    match scaleTen (nearest value 1) power with
    | some size => .float negative size
    | none => .beyond

/-- A number with neither fraction nor exponent. -/
def makeInteger (negative : Bool) (digits : List Char) : Datum :=
  let value := digitsValue digits
  if negative then
    if value = 0 || 0x8000000000000000 < value then makeFloat true digits [] 0 else .int (-value)
  else if maxExact < value then makeFloat false digits [] 0
  else .int value

/-- The exponent part of a number, if one follows; none when it has no digit. -/
def readExponent : List Char → Option (Option Int × List Char)
  | e :: rest =>
    if e == 'e' || e == 'E' then
      let (negative, rest) := match rest with
        | '-' :: rest => (true, rest)
        | '+' :: rest => (false, rest)
        | rest => (false, rest)
      let digits := rest.takeWhile Char.isDigit
      if digits.isEmpty then none
      else
        let value : Int := digitsValue digits
        some (some (if negative then -value else value), rest.dropWhile Char.isDigit)
    else some (none, e :: rest)
  | [] => some (none, [])

/-- A number from its first digit on. -/
def readDigits (negative : Bool) (text : List Char) : Option (Datum × List Char) :=
  let whole := text.takeWhile Char.isDigit
  let rest := text.dropWhile Char.isDigit
  if whole.isEmpty || (whole.length ≠ 1 && whole.head? = some '0') then none
  else
    match rest with
    | '.' :: rest =>
      let fraction := rest.takeWhile Char.isDigit
      if fraction.isEmpty then none
      else do
        let (exponent, rest) ← readExponent (rest.dropWhile Char.isDigit)
        return (makeFloat negative whole fraction (exponent.getD 0), rest)
    | rest => do
      let (exponent, rest) ← readExponent rest
      match exponent with
      | some exponent => return (makeFloat negative whole [] exponent, rest)
      | none => return (makeInteger negative whole, rest)

/-! ## Values -/

/-- How many containers may be open at once. -/
def maxDepth : Nat := 127

/-- A container, unless no more of them may be open. -/
def ifOpen (depth : Nat) (container : Datum) : Datum := if depth = 0 then .beyond else container

/-- An object, unless one of its names is lost. -/
def makeObject (members : List (Option String × Datum)) : Datum :=
  match members.mapM fun (name, value) => name.map (·, value) with
  | some members => .object members
  | none => .beyond

mutual

/-- A value at the start of the text, and the text after it; `depth` more containers may be
open. -/
def readValue (fuel depth : Nat) (text : List Char) : Option (Datum × List Char) :=
  match fuel with
  | 0 => none
  | fuel + 1 =>
    match skip text with
    | 'n' :: 'u' :: 'l' :: 'l' :: rest => some (.null, rest)
    | 't' :: 'r' :: 'u' :: 'e' :: rest => some (.bool true, rest)
    | 'f' :: 'a' :: 'l' :: 's' :: 'e' :: rest => some (.bool false, rest)
    | '"' :: rest => (readString (some "") rest).map fun (s, rest) => (s.elim .beyond .string, rest)
    | '[' :: rest =>
      match skip rest with
      | ']' :: rest => some (ifOpen depth (.array []), rest)
      | rest =>
        (readItems fuel (depth - 1) rest).map fun (items, rest) =>
          (ifOpen depth (.array items), rest)
    | '{' :: rest =>
      match skip rest with
      | '}' :: rest => some (ifOpen depth (.object []), rest)
      | rest =>
        (readMembers fuel (depth - 1) rest).map fun (members, rest) =>
          (ifOpen depth (makeObject members), rest)
    | '-' :: rest => readDigits true rest
    | rest => readDigits false rest

/-- The values of an array up to its bracket. -/
def readItems (fuel depth : Nat) (text : List Char) : Option (List Datum × List Char) :=
  match fuel with
  | 0 => none
  | fuel + 1 => do
    let (item, rest) ← readValue fuel depth text
    match skip rest with
    | ']' :: rest => return ([item], rest)
    | ',' :: rest =>
      let (items, rest) ← readItems fuel depth rest
      return (item :: items, rest)
    | _ => none

/-- The members of an object up to its brace. -/
def readMembers (fuel depth : Nat) (text : List Char) :
    Option (List (Option String × Datum) × List Char) :=
  match fuel with
  | 0 => none
  | fuel + 1 =>
    match skip text with
    | '"' :: rest => do
      let (name, rest) ← readString (some "") rest
      match skip rest with
      | ':' :: rest =>
        let (value, rest) ← readValue fuel depth rest
        match skip rest with
        | '}' :: rest => return ([(name, value)], rest)
        | ',' :: rest =>
          let (members, rest) ← readMembers fuel depth rest
          return ((name, value) :: members, rest)
        | _ => none
      | _ => none
    | _ => none

end

/-- The value that a text writes, if the text is well formed. -/
def scan (text : String) : Option Datum :=
  let chars := text.toList
  match readValue (2 * chars.length + 2) maxDepth chars with
  | some (value, rest) => if (skip rest).isEmpty then some value else none
  | none => none

/-- The value that a text writes, if all of it can be held. -/
def read (text : String) : Option Datum := (scan text).filter Datum.isHeld

/-- Why a text gives no value of a type. -/
inductive Mistake where
  /-- The text is not JSON, or a value that matters cannot be held. -/
  | malformed
  /-- The value does not have the type. -/
  | mistyped (cause : DecodeError)
  deriving DecidableEq, Repr

/-- The typed value that a text writes.  What the type ignores need not be held; but once there is
a mistake, a value that cannot be held is the one to report. -/
def decode {α : Type} (decode : Decode α) (text : String) : Except Mistake α :=
  match scan text with
  | none => .error .malformed
  | some value =>
    match decode .streamed value with
    | .ok typed => .ok typed
    | .error cause => .error (if value.isHeld then .mistyped cause else .malformed)

end Chaperone.Json
