import Chaperone.Machine.Routine

/-!
# Tests

The conditions of `test` and `[`.  A word that looks like an operator counts as a text where an
operator would make no sense: in the place of the first of two sides, or at the end.
-/

namespace Chaperone.Machine.Shell.Test

open Routine

/-- What a word of a condition is. -/
inductive Sign where
  /-- The end of the condition. -/
  | over
  | operand
  | unary (operator : String)
  | binary (operator : String)
  | not
  | both
  | either
  | opening
  | closing
  deriving DecidableEq, Repr

/-- The operators with one side. -/
def unaryOperators : List String :=
  ["-r", "-w", "-x", "-e", "-f", "-d", "-c", "-b", "-p", "-u", "-g", "-k", "-s", "-t", "-z", "-n",
    "-h", "-O", "-G", "-L", "-S"]

/-- The operators with two sides. -/
def binaryOperators : List String :=
  ["=", "!=", "<", ">", "-eq", "-ne", "-lt", "-le", "-gt", "-ge", "-nt", "-ot", "-ef"]

/-- What the first word is, given those behind it. -/
def sign : List String → Sign
  | [] => .over
  | word :: rest =>
    if unaryOperators.contains word then
      match rest with
      | [] => .operand
      | next :: _ :: _ => if binaryOperators.contains next then .operand else .unary word
      | _ => .unary word
    else if binaryOperators.contains word then .binary word
    else
      match word with
      | "!" => .not
      | "-a" => .both
      | "-o" => .either
      | "(" => if rest.isEmpty then .operand else .opening
      | ")" => .closing
      | _ => .operand

/-- The number that a word writes in decimal digits, with blanks around it. -/
def number (text : String) : Except String Int :=
  let isBlank (c : Char) : Bool := c == ' ' || ('\t' ≤ c && c ≤ '\r')
  let (negative, rest) := match text.toList.dropWhile isBlank with
    | '-' :: rest => (true, rest)
    | '+' :: rest => (false, rest)
    | rest => (false, rest)
  let digits := rest.takeWhile Char.isDigit
  let n : Int := digits.foldl (fun n c => n * 10 + (c.toNat - 48)) 0
  let n := if negative then -n else n
  let fits := -0x8000000000000000 ≤ n && n ≤ 0x7FFFFFFFFFFFFFFF
  if !digits.isEmpty && (rest.drop digits.length).all isBlank && fits then .ok n
  else .error ("Illegal number: " ++ text)

/-- An operator with two sides. -/
def binary (operator a b : String) : Except String Bool :=
  match operator with
  | "=" => .ok (a == b)
  | "!=" => .ok (a != b)
  | "<" => .ok (decide (a < b))
  | ">" => .ok (decide (b < a))
  | "-nt" | "-ot" => .ok false
  | "-ef" => .ok (a == b)
  | operator => do
    let x ← number a
    let y ← number b
    return match operator with
      | "-eq" => x == y
      | "-ne" => x != y
      | "-lt" => decide (x < y)
      | "-le" => decide (x ≤ y)
      | "-gt" => decide (y < x)
      | _ => decide (y ≤ x)

/-- What an operator asks about a file. -/
def asksOf (operator : String) (node : Node) : Bool :=
  match operator, node with
  | "-f", node => node.isRegular
  | "-d", .directory => true
  | "-x", .directory => true
  | "-x", node => node.isExecutable
  | "-s", .file _ content => !content.isEmpty
  | "-s", .tool _ | "-s", .directory => true
  | "-c", .null | "-c", .zero => true
  | "-h", .link _ | "-L", .link _ => true
  | "-u", .file mode _ => mode &&& 0o4000 ≠ 0
  | "-g", .file mode _ => mode &&& 0o2000 ≠ 0
  | "-k", .file mode _ => mode &&& 0o1000 ≠ 0
  | "-e", _ | "-r", _ | "-w", _ | "-O", _ | "-G", _ => true
  | _, _ => false

/-- An operator with one side. -/
def unary (operator a : String) : Routine (Except String Bool) :=
  match operator with
  | "-n" => return .ok !a.isEmpty
  | "-z" => return .ok a.isEmpty
  | "-t" => return (number a).map fun _ => false
  | operator => do
    let found ← if operator = "-h" || operator = "-L" then ask (.lookLink a) else ask (.look a)
    match found with
    | .ok node => return .ok (asksOf operator node)
    | .error _ => return .ok false

/-- A truth value and the words behind its condition, or what is wrong with the condition. -/
abbrev Verdict := Except String (Bool × List String)

mutual

/-- A condition without `-a` and `-o`. -/
def primary (fuel : Nat) (args : List String) : Routine Verdict :=
  match fuel with
  | 0 => return .ok (false, [])
  | fuel + 1 => do
    match sign args, args with
    | .over, args => return .ok (false, args)
    | .not, _ :: rest =>
      if rest.isEmpty then return .ok (true, [])
      else return (← primary fuel rest).map fun (b, rest) => (!b, rest)
    | .opening, _ :: ")" :: rest => return .ok (false, rest)
    | .opening, _ :: rest =>
      match ← disjunction fuel rest with
      | .ok (b, ")" :: rest) => return .ok (b, rest)
      | .ok _ => return .error "closing paren expected"
      | .error reason => return .error reason
    | .unary operator, _ :: a :: rest => return (← unary operator a).map (·, rest)
    | .unary operator, _ => return .error (operator ++ ": argument expected")
    | _, a :: rest =>
      match sign rest, rest with
      | .binary operator, _ :: b :: rest => return (binary operator a b).map (·, rest)
      | .binary operator, _ => return .error (operator ++ ": argument expected")
      | _, _ => return .ok (!a.isEmpty, rest)
    | _, [] => return .ok (false, [])

/-- Conditions joined by `-a`. -/
def conjunction (fuel : Nat) (args : List String) : Routine Verdict :=
  match fuel with
  | 0 => return .ok (false, [])
  | fuel + 1 => do
    match ← primary fuel args with
    | .ok (b, "-a" :: rest) => return (← conjunction fuel rest).map fun (c, rest) => (b && c, rest)
    | other => return other

/-- Conditions joined by `-o`. -/
def disjunction (fuel : Nat) (args : List String) : Routine Verdict :=
  match fuel with
  | 0 => return .ok (false, [])
  | fuel + 1 => do
    match ← conjunction fuel args with
    | .ok (b, "-o" :: rest) => return (← disjunction fuel rest).map fun (c, rest) => (b || c, rest)
    | other => return other

end

/-- Whether a condition with no more or fewer words than it needs holds. -/
def whole (args : List String) : Routine (Except String Bool) := do
  match ← disjunction (4 * args.length + 4) args with
  | .ok (b, []) => return .ok b
  | .ok (_, rest) =>
    let last := (args.drop (args.length - rest.length - 1)).headD ""
    return .error (last ++ ": unexpected operator")
  | .error reason => return .error reason

/-- Whether the condition holds, or what is wrong with it.  Three words with an operator in the
middle, and an exclamation mark or parentheses around few words, count as just that. -/
def holds : List String → Routine (Except String Bool)
  | [] => return .ok false
  | [a, operator, b] =>
    if binaryOperators.contains operator then return binary operator a b
    else if a = "(" && b = ")" then whole [operator]
    else if a = "!" then do return (← holds [operator, b]).map (!·)
    else whole [a, operator, b]
  | [a, b, c, d] =>
    if a = "(" && d = ")" then whole [b, c]
    else if a = "!" then do return (← holds [b, c, d]).map (!·)
    else whole [a, b, c, d]
  | args => whole args

end Chaperone.Machine.Shell.Test
