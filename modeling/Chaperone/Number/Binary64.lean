/-!
# Double-precision numbers in exact arithmetic

A document may hold numbers that no field accepts; they are named in the error message, rounded to
double precision and written with the fewest digits that read back.  Both steps are done on natural
numbers: `nearest` rounds a quotient to a multiple of a power of two, and `Binary64.shortest`
searches the decimal grids of 1 to 17 digits for a point that rounds to the value.
-/

namespace Chaperone.Number

/-- A magnitude in double precision: `mantissa * 2 ^ exponent`, or too large for that. -/
inductive Binary64 where
  | finite (mantissa : Nat) (exponent : Int)
  | infinite
  deriving DecidableEq, Repr, Inhabited

/-- `num / den` rounded to the nearest integer, and to the even one of two. -/
def roundEven (num den : Nat) : Nat :=
  let quotient := num / den
  let twice := 2 * (num % den)
  if twice < den then quotient
  else if den < twice then quotient + 1
  else quotient + quotient % 2

/-- `num * 2 ^ shift / den`, as a quotient of natural numbers. -/
def scale (num den : Nat) (shift : Int) : Nat × Nat :=
  if 0 ≤ shift then (num <<< shift.toNat, den) else (num, den <<< (-shift).toNat)

/-- The least mantissa of a normal number: 2 to the 52nd power. -/
def hiddenBit : Nat := 0x10000000000000

/-- The double nearest to `num / den`, where `den` is not zero. -/
def nearest (num den : Nat) : Binary64 :=
  if num = 0 then .finite 0 0
  else
    let guess : Int := (num.log2 : Int) - (den.log2 : Int) - 52
    let exact := scale num den (-guess)
    let power := max (if exact.1 < exact.2 <<< 52 then guess - 1 else guess) (-1074)
    let (n, d) := scale num den (-power)
    let mantissa := roundEven n d
    let (mantissa, power) :=
      if mantissa = 2 * hiddenBit then (hiddenBit, power + 1) else (mantissa, power)
    if 971 < power then .infinite else .finite mantissa power

/-- The value as a quotient of natural numbers; infinity has none and gives zero. -/
def Binary64.toQuotient : Binary64 → Nat × Nat
  | .finite mantissa exponent => scale mantissa 1 exponent
  | .infinite => (0, 1)

/-- `digits * 10 ^ power`, rounded. -/
def ofDecimal (digits : Nat) (power : Int) : Binary64 :=
  if 0 ≤ power then nearest (digits * Nat.pow 10 power.toNat) 1
  else nearest digits (Nat.pow 10 (-power).toNat)

/-- The least `e` with `num / den < 10 ^ e`.  No double needs more than 400 places after the
point before its first digit. -/
def decimalPlace (num den : Nat) : Int :=
  if den ≤ num then ((Nat.toDigits 10 (num / den)).length : Int)
  else Int.negOfNat ((List.range 400).findIdx fun j => den ≤ num * Nat.pow 10 (j + 1))

/-- A positive decimal fraction `0.d₁d₂… * 10 ^ place`. -/
structure Decimal where
  digits : String
  place : Int
  deriving DecidableEq, Repr, Inhabited

/-- The point nearest to the value on the decimal grid of `count` digits, if it rounds to the
value.  The ends of the interval count when the mantissa is even. -/
def onGrid (mantissa : Nat) (exponent : Int) (place : Int) (count : Nat) : Option Decimal :=
  let up := 1 <<< exponent.toNat
  let down := 4 <<< (-exponent).toNat
  let step := place - count
  -- everything in quarters of `2 ^ min exponent 0`, times `10 ^ (-step)` where that is a factor
  let tens := Nat.pow 10 (-step).toNat
  let unit := Nat.pow 10 step.toNat * down
  let value := 4 * mantissa * up * tens
  let high := value + 2 * up * tens
  let low := value - (if mantissa = hiddenBit && -1074 < exponent then 1 else 2) * up * tens
  let inside (c : Nat) : Bool :=
    let point := c * unit
    if mantissa % 2 = 0 then low ≤ point && point ≤ high else low < point && point < high
  let below := value / unit
  let above := below + 1
  let nearer :=
    if inside below && inside above then
      let gapBelow := value - below * unit
      let gapAbove := above * unit - value
      some (if gapBelow < gapAbove then below
        else if gapAbove < gapBelow then above
        else if below % 2 = 0 then below else above)
    else if inside below then some below
    else if inside above then some above
    else none
  nearer.bind fun c =>
    if c = 0 then none
    else
      let digits := Nat.toDigits 10 c
      some ⟨String.ofList digits, step + digits.length⟩

/-- The decimal fraction without trailing zeros. -/
def Decimal.trim (d : Decimal) : Decimal :=
  ⟨String.ofList (d.digits.toList.reverse.dropWhile (· = '0')).reverse, d.place⟩

/-- The fewest digits that read back as the value, and of these the nearest to it. -/
def shortest (mantissa : Nat) (exponent : Int) : Decimal :=
  let (num, den) := scale mantissa 1 exponent
  let place := decimalPlace num den
  match (List.range 17).findSome? fun i => onGrid mantissa exponent place (i + 1) with
  | some d => d.trim
  | none => ⟨"0", 1⟩

/-- Zeros in a row. -/
def zeros (n : Nat) : String := String.ofList (List.replicate n '0')

/-- A decimal fraction written out, with at least one digit on each side of the point. -/
def Decimal.positional (d : Decimal) : String :=
  let digits := d.digits.toList
  if d.place ≤ 0 then "0." ++ zeros (-d.place).toNat ++ d.digits
  else if (digits.length : Int) ≤ d.place then
    d.digits ++ zeros (d.place.toNat - digits.length) ++ ".0"
  else
    String.ofList (digits.take d.place.toNat) ++ "." ++ String.ofList (digits.drop d.place.toNat)

/-- A decimal fraction with one digit before the point and a signed exponent. -/
def Decimal.scientific (d : Decimal) : String :=
  let exponent := d.place - 1
  let tail := d.digits.toList.drop 1
  String.ofList (d.digits.toList.take 1) ++
    (if tail.isEmpty then "" else "." ++ String.ofList tail) ++ "e" ++
    (if exponent < 0 then "-" else "+") ++ toString exponent.natAbs

/-- How a floating-point number is written in a message. -/
inductive FloatStyle where
  /-- Always positional. -/
  | positional
  /-- Positional from `10 ^ -5` up to `10 ^ 16`, else with an exponent. -/
  | compact
  deriving DecidableEq, Repr, Inhabited

/-- The text of a magnitude. -/
def Binary64.render (style : FloatStyle) : Binary64 → String
  | .infinite => "inf"
  | .finite 0 _ => "0.0"
  | .finite mantissa exponent =>
    let d := shortest mantissa exponent
    match style with
    | .positional => d.positional
    | .compact => if -5 < d.place && d.place ≤ 16 then d.positional else d.scientific

end Chaperone.Number
