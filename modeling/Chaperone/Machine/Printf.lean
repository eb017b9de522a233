import Chaperone.Machine.Bytes

/-!
# Formatted printing

The `printf` of the shell: its format is used again and again as long as arguments are left, and a
missing argument counts as nothing.  All texts are byte strings.
-/

namespace Chaperone.Machine.Printf

/-- The value of an octal digit. -/
def octal? (c : Char) : Option Nat := if '0' ≤ c && c ≤ '7' then some (c.toNat - 48) else none

/-- Up to `count` octal digits. -/
def octalRun : Nat → Nat → List Char → Nat × List Char
  | 0, value, rest => (value, rest)
  | count + 1, value, c :: rest =>
    match octal? c with
    | some d => octalRun count (value * 8 + d) rest
    | none => (value, c :: rest)
  | _, value, [] => (value, [])

/-- What an escape stands for, read after its backslash. -/
def escape : List Char → String × List Char
  | [] => ("\\", [])
  | 'a' :: rest => ("\x07", rest)
  | 'b' :: rest => ("\x08", rest)
  | 'e' :: rest => ("\x1b", rest)
  | 'f' :: rest => ("\x0c", rest)
  | 'n' :: rest => ("\n", rest)
  | 'r' :: rest => ("\r", rest)
  | 't' :: rest => ("\t", rest)
  | 'v' :: rest => ("\x0b", rest)
  | '\\' :: rest => ("\\", rest)
  | c :: rest =>
    match octal? c with
    | some _ =>
      let (value, rest) := octalRun 3 0 (c :: rest)
      (String.singleton (Char.ofNat (value % 256)), rest)
    | none => ("\\" ++ String.singleton c, rest)

/-- A text with its escapes carried out, and whether it ends all output. -/
def unescape (fuel : Nat) (done : String) (text : List Char) : String × Bool :=
  match fuel with
  | 0 => (done, false)
  | fuel + 1 =>
    match text with
    | [] => (done, false)
    | '\\' :: 'c' :: _ => (done, true)
    | '\\' :: '0' :: rest =>
      let (value, rest) := octalRun 3 0 rest
      unescape fuel (done.push (Char.ofNat (value % 256))) rest
    | '\\' :: rest =>
      let (s, rest) := escape rest
      unescape fuel (done ++ s) rest
    | c :: rest => unescape fuel (done.push c) rest

/-- The text of an argument of `echo`. -/
def unescaped (text : String) : String × Bool := unescape (text.length + 1) "" text.toList

/-! ## Numbers -/

/-- The value of a run of digits of a base, and whether it was all of the text. -/
def digits (base : Nat) (text : List Char) : Nat × Bool :=
  let run := text.takeWhile fun c => (value? c).isSome
  (run.foldl (fun n c => n * base + (value? c).getD 0) 0,
    !run.isEmpty && run.length = text.length)
where
  /-- The value of a digit. -/
  value? (c : Char) : Option Nat :=
    let v :=
      if c.isDigit then c.toNat - 48
      else if 'a' ≤ c && c ≤ 'z' then c.toNat - 87
      else if 'A' ≤ c && c ≤ 'Z' then c.toNat - 55
      else 99
    if v < base then some v else none

/-- A number, and whether the text is one. -/
def integer (text : String) : Int × Bool :=
  let (negative, rest) := match (text.toList.dropWhile (· == ' ')) with
    | '-' :: rest => (true, rest)
    | '+' :: rest => (false, rest)
    | rest => (false, rest)
  let (n, ok) := match rest with
    | '0' :: 'x' :: rest | '0' :: 'X' :: rest => digits 16 rest
    | ['0'] => (0, true)
    | '0' :: rest => digits 8 rest
    | ['\'', c] | ['"', c] => (c.toNat, true)
    | rest => digits 10 rest
  (if negative then -(n : Int) else n, ok)

/-- What is wrong with an argument that should be a number. -/
inductive Flaw where
  | notNumber
  /-- It goes on after the number. -/
  | unfinished
  | outOfRange
  deriving DecidableEq, Repr, Inhabited

/-- The number that an argument writes, in 64 bits, and what is wrong with it.  A character behind a
quote counts as its code. -/
def number (signed : Bool) (text : String) : Int × Option Flaw :=
  match text.toList with
  | '\'' :: rest | '"' :: rest => ((rest.headD '\x00').toNat, none)
  | chars =>
    let trimmed := chars.dropWhile fun c => c == ' ' || ('\t' ≤ c && c ≤ '\r')
    let (negative, rest) := match trimmed with
      | '-' :: rest => (true, rest)
      | '+' :: rest => (false, rest)
      | rest => (false, rest)
    let isHex (c : Char) : Bool := (digits.value? 16 c).isSome
    let (base, rest) := match rest with
      | '0' :: 'x' :: c :: more | '0' :: 'X' :: c :: more =>
        if isHex c then (16, c :: more) else (8, rest)
      | '0' :: _ => (8, rest)
      | rest => (10, rest)
    let run := rest.takeWhile fun c => (digits.value? base c).isSome
    let n : Int := (digits base run).1
    let n := if negative then -n else n
    let (low, high) : Int × Int := if signed then (-0x8000000000000000, 0x7FFFFFFFFFFFFFFF)
      else (-0xFFFFFFFFFFFFFFFF, 0xFFFFFFFFFFFFFFFF)
    let held := if n < low then (if signed then low else high) else min n high
    (held,
      if chars.isEmpty then none
      else if run.isEmpty then some .notNumber
      else if run.length < rest.length then some .unfinished
      else if n < low || high < n then some .outOfRange
      else none)

/-! ## Fields -/

/-- How a conversion fills its field. -/
structure Field where
  left : Bool := false
  zero : Bool := false
  plus : Bool := false
  blank : Bool := false
  alternate : Bool := false
  width : Nat := 0
  precision : Option Nat := none

/-- The sign of a number, or what stands before its digits. -/
def leadLength (text : List Char) : Nat :=
  match text with
  | '-' :: _ | '+' :: _ | ' ' :: _ => 1
  | '0' :: 'x' :: _ | '0' :: 'X' :: _ => 2
  | _ => 0

/-- A text in its field. -/
def Field.fill (field : Field) (text : String) (zeros : Bool) : String :=
  let room := field.width - text.length
  if field.left then text ++ String.ofList (List.replicate room ' ')
  else if zeros && field.zero && field.precision.isNone then
    let lead := leadLength text.toList
    String.ofList (text.toList.take lead ++ List.replicate room '0' ++ text.toList.drop lead)
  else String.ofList (List.replicate room ' ') ++ text

/-- Digits, at least `precision` of them. -/
def Field.pad (field : Field) (ds : String) : String :=
  if field.precision = some 0 && ds = "0" then ""
  else String.ofList (List.replicate (field.precision.getD 0 - ds.length) '0') ++ ds

/-- A number in decimal digits. -/
def Field.decimal (field : Field) (n : Int) : String :=
  (if n < 0 then "-" else if field.plus then "+" else if field.blank then " " else "") ++
    field.pad (toString n.natAbs)

/-- A number as one without a sign, in 64 bits. -/
def unsigned (n : Int) : Nat := (n % 0x10000000000000000).toNat

/-- What has been printed so far. -/
structure Progress where
  text : String := ""
  args : List String := []
  /-- Whether an argument was asked for. -/
  asked : Bool := false
  /-- Whether all output ends here. -/
  ended : Bool := false
  /-- Arguments that are not numbers though they should be. -/
  wrong : List (String × Flaw) := []
  /-- Why the format cannot be followed any further. -/
  failure : Option String := none

/-- Takes the next argument. -/
def Progress.next (p : Progress) : Option String × Progress :=
  match p.args with
  | [] => (none, { p with asked := true })
  | a :: rest => (some a, { p with args := rest, asked := true })

/-- Takes the next argument as a number. -/
def Progress.nextNumber (p : Progress) (signed : Bool) : Int × Progress :=
  let (arg, p) := p.next
  match arg with
  | none => (0, p)
  | some text =>
    let (n, flaw) := number signed text
    (n, { p with wrong := p.wrong ++ (flaw.map (text, ·)).toList })

/-- A width or precision: digits, or the next argument. -/
def measure (text : List Char) (p : Progress) : Int × List Char × Progress :=
  match text with
  | '*' :: rest =>
    let (n, p) := p.nextNumber true
    (n, rest, p)
  | text =>
    let ds := text.takeWhile Char.isDigit
    ((digits 10 ds).1, text.drop ds.length, p)

/-- Flags, width and precision. -/
def field (text : List Char) (p : Progress) : Field × List Char × Progress :=
  let flags := text.takeWhile fun c => c == '-' || c == '0' || c == '+' || c == ' ' || c == '#'
  let (width, rest, p) := measure (text.drop flags.length) p
  let (precision, rest, p) := match rest with
    | '.' :: rest =>
      let (n, rest, p) := measure rest p
      (if n < 0 then none else some n.toNat, rest, p)
    | rest => (none, rest, p)
  ({ left := flags.contains '-' || width < 0, zero := flags.contains '0'
     plus := flags.contains '+', blank := flags.contains ' ', alternate := flags.contains '#'
     width := width.natAbs, precision }, rest, p)

/-- One conversion; `directive` is how the format writes it. -/
def convert (kind : Char) (directive : String) (f : Field) (p : Progress) : Progress :=
  let put (p : Progress) (text : String) (zeros : Bool) : Progress :=
    { p with text := p.text ++ f.fill text zeros }
  let cut (s : String) : String := match f.precision with
    | some n => String.ofList (s.toList.take n)
    | none => s
  let signed (_ : Unit) : Progress :=
    let (n, p) := p.nextNumber true
    put p (f.decimal n) true
  let based (base : Nat) (lead : String) (upper : Bool) : Progress :=
    let (n, p) := p.nextNumber false
    let ds := f.pad (String.ofList (Nat.toDigits base (unsigned n)))
    let ds := if f.alternate && unsigned n ≠ 0 && !(base = 8 && ds.startsWith "0") then lead ++ ds
      else ds
    put p (if upper then ds.toUpper else ds) true
  match kind with
  | 's' =>
    let (arg, p) := p.next
    put p (cut (arg.getD "")) false
  | 'b' =>
    let (arg, p) := p.next
    let (s, ended) := unescaped (arg.getD "")
    { put p (cut s) false with ended }
  | 'c' =>
    let (arg, p) := p.next
    put p (String.singleton ((arg.getD "").toList.headD '\x00')) false
  | 'd' | 'i' => signed ()
  | 'u' => based 10 "" false
  | 'x' => based 16 "0x" false
  | 'X' => based 16 "0x" true
  | 'o' => based 8 "0" false
  | _ => { p with ended := true, failure := some (directive ++ ": invalid directive") }

/-- The format once. -/
def once (fuel : Nat) (format : List Char) (p : Progress) : Progress :=
  match fuel with
  | 0 => p
  | fuel + 1 =>
    if p.ended then p
    else
      match format with
      | [] => p
      | '%' :: '%' :: rest => once fuel rest { p with text := p.text.push '%' }
      | '%' :: more =>
        let (f, rest, p) := field more p
        match rest with
        | [] => { p with ended := true, failure := some "missing format character" }
        | kind :: rest =>
          let directive := String.ofList ('%' :: more.take (more.length - rest.length))
          once fuel rest (convert kind directive f p)
      | '\\' :: rest =>
        let (s, rest) := escape rest
        once fuel rest { p with text := p.text ++ s }
      | c :: rest => once fuel rest { p with text := p.text.push c }

/-- The format as often as there are arguments for it. -/
def again (fuel : Nat) (format : List Char) (p : Progress) : Progress :=
  match fuel with
  | 0 => p
  | fuel + 1 =>
    let p := once (format.length + 1) format { p with asked := false }
    if p.ended || !p.asked || p.args.isEmpty then p else again fuel format p

/-- What is printed, and what is wrong. -/
def print (format : String) (args : List String) : Progress :=
  again (args.length + 1) format.toList { args }

end Chaperone.Machine.Printf
