/-!
# Patterns

A pattern is matched against a whole text: `*` stands for any text, `?` for any character, and
brackets for one of the characters in them.  A character that is meant literally stands for
itself.
-/

namespace Chaperone.Machine.Shell

/-- A character, and whether it is meant literally. -/
abbrev Glyph := Char × Bool

/-- The characters of a text, all meant literally or none of them. -/
def glyphs (text : String) (literal : Bool) : List Glyph := text.toList.map (·, literal)

namespace Pattern

/-- Characters that brackets stand for. -/
inductive Member where
  | range (low high : Char)
  | kind (holds : Char → Bool)

/-- What a part of a pattern stands for. -/
inductive Atom where
  | exact (c : Char)
  | one
  | many
  /-- One of some characters, or with `inverted` any other. -/
  | member (inverted : Bool) (members : List Member)

/-- Whether a character is a visible one that is neither letter nor digit. -/
def isPunctuation (c : Char) : Bool := '!' ≤ c && c ≤ '~' && !c.isAlphanum

/-- The kinds of characters that have names. -/
def kinds : List (String × (Char → Bool)) :=
  [ ("alnum", Char.isAlphanum), ("alpha", Char.isAlpha), ("blank", fun c => c == ' ' || c == '\t'),
    ("cntrl", fun c => c.toNat < 32 || c.toNat == 127), ("digit", Char.isDigit),
    ("graph", fun c => '!' ≤ c && c ≤ '~'), ("lower", Char.isLower),
    ("print", fun c => ' ' ≤ c && c ≤ '~'), ("punct", isPunctuation),
    ("space", fun c => c == ' ' || ('\t' ≤ c && c ≤ '\r')), ("upper", Char.isUpper),
    ("xdigit", fun c => c.isDigit || ('a' ≤ c && c ≤ 'f') || ('A' ≤ c && c ≤ 'F')) ]

/-- A kind of characters by its name, and what stands behind it. -/
def namedKind? (text : List Glyph) : Option ((Char → Bool) × List Glyph) :=
  let name := text.takeWhile fun g => g.1.isAlpha
  match text.drop name.length with
  | (':', _) :: (']', false) :: rest =>
    (kinds.lookup (String.ofList (name.map (·.1)))).map (·, rest)
  | _ => none

/-- The characters in brackets and what stands behind the brackets, if they are closed.  The first
character cannot close them. -/
def members (fuel : Nat) (first : Bool) (done : List Member) (text : List Glyph) :
    Option (List Member × List Glyph) :=
  match fuel with
  | 0 => none
  | fuel + 1 =>
    let single (c : Char) (rest : List Glyph) : Option (List Member × List Glyph) :=
      match rest with
      | ('-', false) :: (d, literal) :: rest =>
        if d == ']' && !literal then
          members fuel false (.range c c :: done) (('-', false) :: (d, literal) :: rest)
        else members fuel false (.range c d :: done) rest
      | rest => members fuel false (.range c c :: done) rest
    match text with
    | [] => none
    | (']', false) :: rest => if first then single ']' rest else some (done, rest)
    | ('[', false) :: (':', false) :: rest =>
      match namedKind? rest with
      | some (holds, rest) => members fuel false (.kind holds :: done) rest
      | none => single '[' ((':', false) :: rest)
    | ('\\', false) :: (c, _) :: rest => single c rest
    | (c, _) :: rest => single c rest

/-- The parts of a pattern.  A backslash that is not meant literally makes the next character
literal. -/
def atoms (fuel : Nat) (text : List Glyph) : List Atom :=
  match fuel with
  | 0 => []
  | fuel + 1 =>
    match text with
    | [] => []
    | ('*', false) :: rest => .many :: atoms fuel rest
    | ('?', false) :: rest => .one :: atoms fuel rest
    | ('\\', false) :: (c, _) :: rest => .exact c :: atoms fuel rest
    | ('[', false) :: rest =>
      let (inverted, inside) := match rest with
        | ('!', false) :: inside => (true, inside)
        | _ => (false, rest)
      match members fuel true [] inside with
      | some (found, rest) => .member inverted found :: atoms fuel rest
      | none => .exact '[' :: atoms fuel rest
    | (c, _) :: rest => .exact c :: atoms fuel rest

/-- Whether a character is among those that brackets stand for. -/
def Member.holds (c : Char) : Member → Bool
  | .range low high => low ≤ c && c ≤ high
  | .kind holds => holds c

/-- Whether a text is one that the parts stand for. -/
def matches? : List Atom → List Char → Bool
  | [], text => text.isEmpty
  | .many :: rest, [] => matches? rest []
  | .many :: rest, c :: text => matches? rest (c :: text) || matches? (.many :: rest) text
  | _ :: _, [] => false
  | .exact d :: rest, c :: text => c == d && matches? rest text
  | .one :: rest, _ :: text => matches? rest text
  | .member inverted members :: rest, c :: text =>
    (members.any (·.holds c)) != inverted && matches? rest text
termination_by atoms text => (atoms.length, text.length)

/-- The parts of a whole pattern. -/
def ofGlyphs (text : List Glyph) : List Atom := atoms (text.length + 1) text

/-- Whether a text has a character that a pattern gives a meaning. -/
def isActive (text : List Glyph) : Bool :=
  text.any fun (c, literal) => !literal && (c == '*' || c == '?' || c == '[')

/-- A text without its shortest or longest beginning, or end, that matches. -/
def strip (atEnd longest : Bool) (pattern : List Atom) (text : List Char) : List Char :=
  let sizes := List.range (text.length + 1)
  let part (n : Nat) : List Char := if atEnd then text.drop (text.length - n) else text.take n
  match (if longest then sizes.reverse else sizes).find? fun n => matches? pattern (part n) with
  | some n => if atEnd then text.take (text.length - n) else text.drop n
  | none => text

end Pattern

end Chaperone.Machine.Shell
