import Chaperone.Document.Datum
import Chaperone.Toml.Text

/-!
# Numbers, truth values and times of TOML

An integer fits in 64 bits with a sign; a float is rounded to double precision.  A positive one must
not be too large for it, while a negative one then becomes the negative infinity.  A date or time is
checked against the calendar and held as an object with the one member
`$__toml_private_datetime`, so that no field takes it for a text.
-/

namespace Chaperone.Toml

open Number

/-- The digits of base 2, 8, 10 or 16. -/
def isDigitOf (base : Nat) (c : Char) : Bool :=
  match hexDigit? c with
  | some d => d < base
  | none => false

/-- A digit and more digits, with single underscores between them. -/
def digits (base : Nat) : List Char → Option (List Char × List Char)
  | c :: '_' :: d :: rest =>
    if isDigitOf base c then
      if isDigitOf base d then
        (digits base (d :: rest)).map fun (more, rest) => (c :: more, rest)
      else none
    else none
  | [_, '_'] => none
  | c :: rest =>
    if isDigitOf base c then
      match rest with
      | d :: _ =>
        if isDigitOf base d then
          (digits base rest).map fun (more, rest) => (c :: more, rest)
        else some ([c], rest)
      | [] => some ([c], [])
    else none
  | [] => none

/-- The number that digits write. -/
def valueOf (base : Nat) (ds : List Char) : Nat :=
  ds.foldl (fun value c => value * base + (hexDigit? c).getD 0) 0

/-- The sign of a number, if it has one. -/
def sign : List Char → Option Bool × List Char
  | '+' :: rest => (some false, rest)
  | '-' :: rest => (some true, rest)
  | rest => (none, rest)

/-- An integer, if 64 bits are enough for it. -/
def integer (negative : Bool) (size : Nat) : Option Datum :=
  if negative then if size ≤ 0x8000000000000000 then some (.int (-size)) else none
  else if size < 0x8000000000000000 then some (.int size) else none

/-- A float from its digits before and after the point and its exponent. -/
def float (negative : Bool) (whole fraction : List Char) (exponent : Int) : Option Datum :=
  let power := exponent - fraction.length
  let mantissa := valueOf 10 (whole ++ fraction)
  let places := (whole ++ fraction).length
  -- beyond these bounds every number is zero or too large, whatever its digits
  let size :=
    if mantissa = 0 then .finite 0 0
    else if 400 < power then .infinite
    else if power < -400 - (places : Int) then .finite 0 0
    else ofDecimal mantissa power
  if size = .infinite && !negative then none else some (.float negative size)

/-- The exponent of a number, if one follows. -/
def exponent : List Char → Option (Option Int × List Char)
  | e :: rest =>
    if e == 'e' || e == 'E' then do
      let (negative, rest) := sign rest
      let (ds, rest) ← digits 10 rest
      let size : Int := valueOf 10 ds
      return (some (if negative = some true then -size else size), rest)
    else some (none, e :: rest)
  | [] => some (none, [])

/-- A decimal number after its sign. -/
def decimal (negative : Bool) (text : List Char) : Option (Datum × List Char) := do
  let (whole, rest) ← digits 10 text
  if whole.length ≠ 1 && whole.head? = some '0' then none
  else
    match rest with
    | '.' :: rest =>
      let (fraction, rest) ← digits 10 rest
      let (exponent, rest) ← exponent rest
      return (← float negative whole fraction (exponent.getD 0), rest)
    | rest =>
      let (exponent, rest) ← exponent rest
      match exponent with
      | some exponent => return (← float negative whole [] exponent, rest)
      | none => return (← integer negative (valueOf 10 whole), rest)

/-- A number. -/
def number (text : List Char) : Option (Datum × List Char) :=
  let based (base : Nat) (rest : List Char) : Option (Datum × List Char) := do
    let (ds, rest) ← digits base rest
    return (← integer false (valueOf base ds), rest)
  match text with
  | '0' :: 'x' :: rest => based 16 rest
  | '0' :: 'o' :: rest => based 8 rest
  | '0' :: 'b' :: rest => based 2 rest
  | _ =>
    let (negative, rest) := sign text
    match rest with
    | 'i' :: 'n' :: 'f' :: rest => some (.float (negative.getD false) .infinite, rest)
    | 'n' :: 'a' :: 'n' :: rest => some (.notANumber, rest)
    | rest => decimal (negative.getD false) rest

/-! ## Dates and times -/

/-- A number of two digits. -/
def twoDigits : List Char → Option (Nat × List Char)
  | a :: b :: rest =>
    if a.isDigit && b.isDigit then some ((a.toNat - 48) * 10 + (b.toNat - 48), rest) else none
  | _ => none

/-- Two digits, and the number with them. -/
def pad (n : Nat) : String := (if n < 10 then "0" else "") ++ toString n

/-- How many days a month has. -/
def daysIn (year month : Nat) : Nat :=
  if month = 2 then
    if (year % 4 = 0 && year % 100 ≠ 0) || year % 400 = 0 then 29 else 28
  else if month = 4 || month = 6 || month = 9 || month = 11 then 30
  else 31

/-- The character `c`, and the text after it. -/
def exactly (c : Char) : List Char → Option (List Char)
  | d :: rest => if c = d then some rest else none
  | [] => none

/-- A date. -/
def date (text : List Char) : Option (String × List Char) := do
  let (century, rest) ← twoDigits text
  let (inCentury, rest) ← twoDigits rest
  let year := century * 100 + inCentury
  let (month, rest) ← twoDigits (← exactly '-' rest)
  let (day, rest) ← twoDigits (← exactly '-' rest)
  if 1 ≤ month && month ≤ 12 && 1 ≤ day && day ≤ daysIn year month then
    return (pad century ++ pad inCentury ++ "-" ++ pad month ++ "-" ++ pad day, rest)
  else none

/-- The fraction of a second, if one follows: nine places count, and final zeros do not. -/
def fraction : List Char → Option (String × List Char)
  | '.' :: rest =>
    let ds := rest.takeWhile Char.isDigit
    if ds.isEmpty then none
    else
      let kept := ((ds.take 9).reverse.dropWhile (· == '0')).reverse
      some (if kept.isEmpty then "" else "." ++ String.ofList kept, rest.dropWhile Char.isDigit)
  | rest => some ("", rest)

/-- A time of day. -/
def time (text : List Char) : Option (String × List Char) := do
  let (hour, rest) ← twoDigits text
  let (minute, rest) ← twoDigits (← exactly ':' rest)
  let (second, rest) ← twoDigits (← exactly ':' rest)
  if hour ≤ 23 && minute ≤ 59 && second ≤ 60 then
    let (part, rest) ← fraction rest
    return (pad hour ++ ":" ++ pad minute ++ ":" ++ pad second ++ part, rest)
  else none

/-- The distance from universal time, if one follows. -/
def offset : List Char → Option (String × List Char)
  | c :: rest =>
    if c == 'Z' || c == 'z' then some ("Z", rest)
    else if c == '+' || c == '-' then do
      let (hour, rest) ← twoDigits rest
      let (minute, rest) ← twoDigits (← exactly ':' rest)
      if hour ≤ 23 && minute ≤ 59 then
        -- no distance at all counts as one to the east
        let direction := if hour = 0 && minute = 0 then '+' else c
        return (String.singleton direction ++ pad hour ++ ":" ++ pad minute, rest)
      else none
    else some ("", c :: rest)
  | [] => some ("", [])

/-- How a date or time is held. -/
def moment (text : String) : Datum := .object [("$__toml_private_datetime", .string text)]

/-- Whether a text starts with a date or a time rather than with a number. -/
def startsMoment (text : List Char) : Bool :=
  let run := (text.takeWhile Char.isDigit).length
  match text.dropWhile Char.isDigit with
  | c :: _ => (run == 4 && c == '-') || (run == 2 && c == ':')
  | [] => false

/-- A date, a time, or both. -/
def dateTime (text : List Char) : Option (Datum × List Char) :=
  if (text.takeWhile Char.isDigit).length = 2 then
    (time text).map fun (t, rest) => (moment t, rest)
  else do
    let (day, rest) ← date text
    let withTime (after : List Char) : Option (Datum × List Char) := do
      let (t, rest) ← time after
      let (o, rest) ← offset rest
      return (moment (day ++ "T" ++ t ++ o), rest)
    match rest with
    | 'T' :: after | 't' :: after => withTime after
    | ' ' :: after =>
      if startsMoment after then withTime after else return (moment day, rest)
    | rest => return (moment day, rest)

/-- A value that is neither a string nor a container. -/
def scalar (text : List Char) : Option (Datum × List Char) :=
  match text with
  | 't' :: 'r' :: 'u' :: 'e' :: rest => some (.bool true, rest)
  | 'f' :: 'a' :: 'l' :: 's' :: 'e' :: rest => some (.bool false, rest)
  | text => if startsMoment text then dateTime text else number text

end Chaperone.Toml
