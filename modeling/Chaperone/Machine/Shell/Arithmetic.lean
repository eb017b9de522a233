import Chaperone.Machine.Printf
import Chaperone.Machine.Shell.Command

/-!
# Arithmetic of the shell

Expressions over numbers of 64 bits, with the operators, precedences and conversions of C.  A
variable counts as the number that its value writes.
-/

namespace Chaperone.Machine.Shell.Arithmetic

/-- A number brought into 64 bits. -/
def wrap (n : Int) : Int := n.bmod 0x10000000000000000

/-- A truth value. -/
def ofBool (b : Bool) : Int := if b then 1 else 0

/-- The bits of a number. -/
def bits (n : Int) : Nat := (n % 0x10000000000000000).toNat

/-- The operators with two sides, those that bind loosest first. -/
def levels : List (List String) :=
  [ ["||"], ["&&"], ["|"], ["^"], ["&"], ["==", "!="], ["<=", ">=", "<", ">"], ["<<", ">>"],
    ["+", "-"], ["*", "/", "%"] ]

/-- What an operator gives, or `none` for a division by zero. -/
def apply (operator : String) (a b : Int) : Option Int :=
  match operator with
  | "||" => some (ofBool (a ≠ 0 || b ≠ 0))
  | "&&" => some (ofBool (a ≠ 0 && b ≠ 0))
  | "|" => some (wrap (bits a ||| bits b : Nat))
  | "^" => some (wrap (bits a ^^^ bits b : Nat))
  | "&" => some (wrap (bits a &&& bits b : Nat))
  | "==" => some (ofBool (a = b))
  | "!=" => some (ofBool (a ≠ b))
  | "<=" => some (ofBool (a ≤ b))
  | ">=" => some (ofBool (b ≤ a))
  | "<" => some (ofBool (a < b))
  | ">" => some (ofBool (b < a))
  | "<<" => some (wrap (a <<< (bits b % 64)))
  | ">>" => some (wrap (a >>> (bits b % 64)))
  | "+" => some (wrap (a + b))
  | "-" => some (wrap (a - b))
  | "*" => some (wrap (a * b))
  | "/" => if b = 0 then none else some (wrap (a.tdiv b))
  | "%" => if b = 0 then none else some (wrap (a.tmod b))
  | _ => none

/-- Whether an operator stands at the beginning of a text and does not begin a longer one. -/
def standsAt (operator : String) (text : List Char) : Bool :=
  text.take operator.length = operator.toList &&
    match operator, text.drop operator.length with
    | "|", '|' :: _ | "&", '&' :: _ | "<", '<' :: _ | ">", '>' :: _ => false
    | _, _ => true

/-- A text without the blanks before it. -/
def trim (text : List Char) : List Char :=
  text.dropWhile fun c => c == ' ' || c == '\t' || c == '\n'

/-- The operators that set a variable, those that are the beginning of others last. -/
def assignments : List String :=
  ["<<=", ">>=", "+=", "-=", "*=", "/=", "%=", "&=", "|=", "^=", "="]

/-- What is left of an expression, and the variables that it has set so far. -/
structure Progress where
  text : List Char
  assigned : List (String × Int) := []
  deriving Inhabited

/-- The expression after some characters. -/
def Progress.after (p : Progress) (text : List Char) : Progress := { p with text }

/-- The number that a value writes, with blanks around it; nothing counts as zero. -/
def numberOf (value : String) : Except String Int :=
  let digits := (trim value.toList).reverse.dropWhile fun c => c == ' ' || c == '\t' || c == '\n'
  if digits.isEmpty then .ok 0
  else
    match Printf.integer (String.ofList digits.reverse) with
    | (n, true) => .ok (clamp n)
    | _ => .error ("Illegal number: " ++ value)
where
  /-- The nearest number of 64 bits. -/
  clamp (n : Int) : Int := max (-0x8000000000000000) (min 0x7FFFFFFFFFFFFFFF n)

/-- The number of a variable, which the expression may have set itself. -/
def Progress.read (p : Progress) (value : String → String) (name : String) : Except String Int :=
  match p.assigned.lookup name with
  | some n => .ok n
  | none => numberOf (value name)

/-- The name at the beginning of a text. -/
def name? (text : List Char) : Option String :=
  match text with
  | c :: rest =>
    if beginsName c then some (String.ofList (c :: rest.takeWhile continuesName)) else none
  | [] => none

/-- The operator that sets a variable at the beginning of a text. -/
def assignment? (text : List Char) : Option String :=
  (assignments.find? fun operator => text.take operator.length = operator.toList).filter
    fun operator => operator != "=" || (text.drop 1).head? != some '='

mutual

/-- A number, a variable, an expression in parentheses, or one of these after a sign.  What is not
`live` is only read over. -/
def primary (fuel : Nat) (value : String → String) (live : Bool) (p : Progress) :
    Except String (Int × Progress) :=
  match fuel with
  | 0 => .error "too deep"
  | fuel + 1 =>
    match trim p.text with
    | '-' :: rest => do
      let (n, p) ← primary fuel value live (p.after rest)
      return (wrap (-n), p)
    | '+' :: rest => primary fuel value live (p.after rest)
    | '!' :: rest => do
      let (n, p) ← primary fuel value live (p.after rest)
      return (ofBool (n = 0), p)
    | '~' :: rest => do
      let (n, p) ← primary fuel value live (p.after rest)
      return (-n - 1, p)
    | '(' :: rest => do
      let (n, p) ← setting fuel value live (p.after rest)
      match trim p.text with
      | ')' :: rest => return (n, p.after rest)
      | _ => .error "expecting ')'"
    | text =>
      match name? text, text with
      | some name, text => do
        let n ← if live then p.read value name else pure 0
        return (n, p.after (text.drop name.length))
      | none, c :: rest =>
        if c.isDigit then
          let digits := c :: rest.takeWhile Char.isAlphanum
          match Printf.integer (String.ofList digits) with
          | (n, true) => return (numberOf.clamp n, p.after ((c :: rest).drop digits.length))
          | _ => .error "expecting EOF"
        else .error "expecting primary"
      | none, [] => .error "expecting primary"

/-- An expression with the operators of some levels. -/
def operation (fuel : Nat) (value : String → String) (levels : List (List String)) (live : Bool)
    (p : Progress) : Except String (Int × Progress) :=
  match fuel, levels with
  | 0, _ => .error "too deep"
  | fuel + 1, [] => primary fuel value live p
  | fuel + 1, level :: tighter => do
    let (first, p) ← operation fuel value tighter live p
    further fuel value level tighter live first p

/-- The operators of one level after a first side. -/
def further (fuel : Nat) (value : String → String) (level : List String)
    (tighter : List (List String)) (live : Bool) (first : Int) (p : Progress) :
    Except String (Int × Progress) :=
  match fuel with
  | 0 => .error "too deep"
  | fuel + 1 =>
    let text := trim p.text
    match level.find? fun operator => standsAt operator text with
    | none => .ok (first, p.after text)
    | some operator => do
      let decided := (operator = "||" && first ≠ 0) || (operator = "&&" && first = 0)
      let (second, p) ←
        operation fuel value tighter (live && !decided) (p.after (text.drop operator.length))
      match apply operator first second with
      | some n => further fuel value level tighter live n p
      | none =>
        if live then .error "division by zero" else further fuel value level tighter live 0 p

/-- An expression that need not set a variable. -/
def choice (fuel : Nat) (value : String → String) (live : Bool) (p : Progress) :
    Except String (Int × Progress) :=
  match fuel with
  | 0 => .error "too deep"
  | fuel + 1 => do
    let (condition, p) ← operation fuel value levels live p
    match p.text with
    | '?' :: rest =>
      let (yes, p) ← setting fuel value (live && condition ≠ 0) (p.after rest)
      match trim p.text with
      | ':' :: rest =>
        let (no, p) ← choice fuel value (live && condition = 0) (p.after rest)
        return (if condition ≠ 0 then yes else no, p)
      | _ => .error "expecting ':'"
    | _ => return (condition, p)

/-- An expression, which may set a variable. -/
def setting (fuel : Nat) (value : String → String) (live : Bool) (p : Progress) :
    Except String (Int × Progress) :=
  match fuel with
  | 0 => .error "too deep"
  | fuel + 1 =>
    let text := trim p.text
    let found := (name? text).bind fun name =>
      let rest := trim (text.drop name.length)
      (assignment? rest).map fun operator => (name, operator, rest.drop operator.length)
    match found with
    | none => choice fuel value live p
    | some (name, operator, rest) => do
      let (n, p) ← setting fuel value live (p.after rest)
      let n ←
        if operator = "=" then pure n
        else
          let before ← if live then p.read value name else pure 0
          match apply (String.ofList (operator.toList.dropLast)) before n with
          | some n => pure n
          | none => if live then .error "division by zero" else pure 0
      return (n, if live then { p with assigned := (name, n) :: p.assigned } else p)

end

/-- The value of an expression, given those of the variables, and the variables that it sets,
newest first. -/
def evaluate (value : String → String) (text : String) :
    Except String (Int × List (String × Int)) := do
  if (trim text.toList).isEmpty then return (0, [])
  let (n, p) ← setting (20 * text.length + 40) value true { text := text.toList }
  if (trim p.text).isEmpty then return (n, p.assigned) else .error "expecting EOF"

end Chaperone.Machine.Shell.Arithmetic
