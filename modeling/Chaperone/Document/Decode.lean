import Chaperone.Document.Datum

/-!
# Giving document values a type

A decoder takes a `Datum` and gives a typed value or the first mistake.  Mistakes are found in the
order of the text: the members of an object are checked one after the other, and only then is a
missing member reported, in the order in which the record declares its fields.

`Delivery` says how the value reaches the decoder.  It decides a few messages, since a decoder
that follows the text can say less about what it meets than one that has the value at hand.
-/

namespace Chaperone

/-- How a value reaches its decoder. -/
inductive Delivery where
  /-- Read from JSON text while it is decoded. -/
  | streamed
  /-- Set aside inside a JSON text until its type was known. -/
  | buffered
  /-- Read as a JSON value first. -/
  | whole
  /-- Read from a TOML table. -/
  | table
  deriving DecidableEq, Repr

/-- How floating-point numbers are named in messages. -/
def Delivery.floatStyle : Delivery → Number.FloatStyle
  | .table => .positional
  | _ => .compact

/-- Why a value does not have the wanted type. -/
inductive DecodeError where
  | missingField (name : String)
  | duplicateField (name : String)
  | invalidType (found wanted : String)
  | invalidValue (found wanted : String)
  | unknownVariant (name : String) (known : List String)
  | invalidLength (length : Nat) (wanted : String)
  | expectedValue
  | trailingValue
  deriving DecidableEq, Repr

/-- A name in backquotes. -/
def backquoted (name : String) : String := "\x60" ++ name ++ "\x60"

/-- A choice of names in words. -/
def alternatives : List String → String
  | [] => "there are no variants"
  | [a] => "expected " ++ backquoted a
  | [a, b] => "expected " ++ backquoted a ++ " or " ++ backquoted b
  | names => "expected one of " ++ ", ".intercalate (names.map backquoted)

/-- The text of a mistake. -/
def DecodeError.message : DecodeError → String
  | .missingField name => "missing field " ++ backquoted name
  | .duplicateField name => "duplicate field " ++ backquoted name
  | .invalidType found wanted => "invalid type: " ++ found ++ ", expected " ++ wanted
  | .invalidValue found wanted => "invalid value: " ++ found ++ ", expected " ++ wanted
  | .unknownVariant name known =>
    "unknown variant " ++ backquoted name ++ ", " ++ alternatives known
  | .invalidLength length wanted =>
    "invalid length " ++ toString length ++ ", expected " ++ wanted
  | .expectedValue => "expected value"
  | .trailingValue => "trailing characters"

/-- What a decoder gives. -/
abbrev Decoded (α : Type) := Except DecodeError α

/-- A way to give values a type. -/
abbrev Decode (α : Type) := Delivery → Datum → Decoded α

/-- Refuses a value whose kind is wrong. -/
def mistyped {α : Type} (delivery : Delivery) (found : Datum) (wanted : String) : Decoded α :=
  .error (.invalidType (found.describe delivery.floatStyle) wanted)

namespace Decode

/-- A text; `wanted` is what messages call it. -/
def textAs (wanted : String) : Decode String
  | _, .string s => .ok s
  | delivery, d => mistyped delivery d wanted

/-- A text. -/
def text : Decode String := textAs "a string"

/-- The text of a path. -/
def path : Decode String := textAs "path string"

/-- A truth value. -/
def bool : Decode Bool
  | _, .bool b => .ok b
  | delivery, d => mistyped delivery d "a boolean"

/-- An integer between two bounds. -/
def intWithin (least greatest : Int) (wanted : String) : Decode Int
  | delivery, .int n =>
    if least ≤ n ∧ n ≤ greatest then .ok n
    else .error (.invalidValue ((Datum.int n).describe delivery.floatStyle) wanted)
  | delivery, d => mistyped delivery d wanted

/-- A natural number of 64 bits. -/
def nat64 : Decode Nat := fun delivery d =>
  (intWithin 0 0xFFFFFFFFFFFFFFFF "u64" delivery d).map Int.toNat

/-- A natural number of 32 bits. -/
def nat32 : Decode Nat := fun delivery d =>
  (intWithin 0 0xFFFFFFFF "u32" delivery d).map Int.toNat

/-- An integer of 32 bits. -/
def int32 : Decode Int := intWithin (-0x80000000) 0x7FFFFFFF "i32"

/-- A value that may be null. -/
def nullable {α : Type} (decode : Decode α) : Decode (Option α)
  | _, .null => .ok none
  | delivery, d => (decode delivery d).map some

/-- A sequence of values. -/
def list {α : Type} (decode : Decode α) : Decode (List α)
  | delivery, .array items => items.mapM (decode delivery)
  | delivery, d => mistyped delivery d "a sequence"

/-- The members of an object with values of one type. -/
def members {α : Type} (decode : Decode α) : Decode (List (String × α))
  | delivery, .object members =>
    members.mapM fun (name, value) => (decode delivery value).map (name, ·)
  | delivery, d => mistyped delivery d "a map"

/-- One of the names in `known`, with its meaning. -/
def named {α : Type} (known : List (String × α)) (name : String) : Decoded α :=
  match known.lookup name with
  | some meaning => .ok meaning
  | none => .error (.unknownVariant name (known.map (·.1)))

/-- A value that is nothing but one of a few names.  It may also be written as an object whose one
member has that name and no value. -/
def choice {α : Type} (known : List (String × α)) : Decode α
  | _, .string name => named known name
  | delivery, .object members =>
    match delivery, members with
    | .streamed, [] => .error .expectedValue
    | .streamed, (name, value) :: rest => do
      let meaning ← named known name
      match value with
      | .null => if rest.isEmpty then .ok meaning else .error .expectedValue
      | _ => mistyped delivery value "unit"
    | _, [(name, value)] => do
      let meaning ← named known name
      match delivery, value with
      | _, .null | .buffered, .object [] => .ok meaning
      | _, _ => mistyped delivery value "unit"
    | _, _ => .error (.invalidValue "map" "map with a single key")
  | .streamed, _ => .error .expectedValue
  | delivery, d => mistyped delivery d "string or map"

end Decode

/-! ## Records -/

/-- A field of a record, with what its values must satisfy. -/
structure FieldRule where
  name : String
  required : Bool
  check : Delivery → Datum → Decoded Unit

/-- A field that must be there. -/
def FieldRule.needed {α : Type} (name : String) (decode : Decode α) : FieldRule :=
  ⟨name, true, fun delivery d => (decode delivery d).map fun _ => ()⟩

/-- A field that may be left out. -/
def FieldRule.optional {α : Type} (name : String) (decode : Decode α) : FieldRule :=
  ⟨name, false, fun delivery d => (decode delivery d).map fun _ => ()⟩

/-- The values of a record's fields, each accepted by its rule. -/
abbrev Fields := List (String × Datum)

namespace Fields

/-- Checks the members of an object in order; those without a rule are ignored. -/
def ofMembers (rules : List FieldRule) (delivery : Delivery) :
    Fields → List (String × Datum) → Decoded Fields
  | seen, [] => .ok seen
  | seen, (name, value) :: rest =>
    match rules.find? (·.name == name) with
    | none => ofMembers rules delivery seen rest
    | some rule =>
      if (seen.lookup name).isSome then .error (.duplicateField name)
      else
        match rule.check delivery value with
        | .error mistake => .error mistake
        | .ok () => ofMembers rules delivery (seen ++ [(name, value)]) rest

/-- Checks that every field that must be there is. -/
def complete (rules : List FieldRule) (seen : Fields) : Decoded Fields :=
  match rules.find? fun rule => rule.required && (seen.lookup rule.name).isNone with
  | some rule => .error (.missingField rule.name)
  | none => .ok seen

/-- Checks the values of a sequence against the rules in the order of declaration.  Gives the
values that are left over too. -/
def ofItems (record : String) (count : Nat) (delivery : Delivery) :
    Nat → List FieldRule → List Datum → Decoded (Fields × List Datum)
  | _, [], items => .ok ([], items)
  | place, rule :: rules, [] =>
    if rule.required then
      .error (.invalidLength place (record ++ " with " ++ toString count ++
        (if count = 1 then " element" else " elements")))
    else ofItems record count delivery (place + 1) rules []
  | place, rule :: rules, item :: items => do
    rule.check delivery item
    let (fields, left) ← ofItems record count delivery (place + 1) rules items
    return ((rule.name, item) :: fields, left)

/-- Refuses values that are left over at the end of a sequence of `count` fields. -/
def refuseLeft (count : Nat) (delivery : Delivery) (left : List Datum) : Decoded Unit :=
  if left.isEmpty then .ok ()
  else
    match delivery with
    | .table => .ok ()
    | .streamed => .error .trailingValue
    | .buffered =>
      .error (.invalidLength (count + left.length)
        (toString count ++ (if count = 1 then " element" else " elements") ++ " in sequence"))
    | .whole => .error (.invalidLength (count + left.length) "fewer elements in array")

/-- The fields of a record, which is an object or the sequence of its fields. -/
def read (record : String) (rules : List FieldRule) (delivery : Delivery) : Datum → Decoded Fields
  | .object members => do complete rules (← ofMembers rules delivery [] members)
  | .array items => do
    let (fields, left) ← ofItems record rules.length delivery 0 rules items
    refuseLeft rules.length delivery left
    return fields
  | d => mistyped delivery d record

/-- The value of a field that must be there. -/
def get {α : Type} (fields : Fields) (delivery : Delivery) (name : String) (decode : Decode α) :
    Decoded α :=
  match fields.lookup name with
  | some value => decode delivery value
  | none => .error (.missingField name)

/-- The value of a field that has a default. -/
def getD {α : Type} (fields : Fields) (delivery : Delivery) (name : String) (decode : Decode α)
    (default : α) : Decoded α :=
  match fields.lookup name with
  | some value => decode delivery value
  | none => .ok default

end Fields

/-! ## Tagged records -/

namespace Decode

/-- The meaning of a tag.  A value that was set aside may also give its index among the names. -/
def tag {α : Type} (known : List (String × α)) : Decode α
  | _, .string name => named known name
  | .buffered, .int n =>
    if n < 0 then mistyped .buffered (.int n) "variant identifier"
    else
      match known[n.toNat]? with
      | some (_, meaning) => .ok meaning
      | none =>
        .error (.invalidValue ((Datum.int n).describe .compact)
          ("variant index 0 <= i < " ++ toString known.length))
  | delivery, d => mistyped delivery d "variant identifier"

/-- Takes the tag out of an object.  Gives the other members in order. -/
def takeTag {α : Type} (name : String) (known : List (String × α)) (delivery : Delivery) :
    Option α → List (String × Datum) → List (String × Datum) →
      Decoded (α × List (String × Datum))
  | some meaning, others, [] => .ok (meaning, others.reverse)
  | none, _, [] => .error (.missingField name)
  | found, others, (member, value) :: rest =>
    if member = name then
      match found with
      | some _ => .error (.duplicateField name)
      | none => do
        let meaning ← tag known delivery value
        takeTag name known delivery (some meaning) others rest
    else takeTag name known delivery found ((member, value) :: others) rest

/-- Sets values aside, for which they have to be held. -/
def setAside (held : Bool) : Decoded Unit :=
  if held then .ok () else mistyped .buffered .beyond "value"

/-- A record whose member `name` (or, of a sequence, first value) says which one of several
records the others make up.  Those are set aside until the tag is known. -/
def tagged {α β : Type} (enumeration name : String) (known : List (String × α))
    (content : α → Datum → Decoded β) : Decode β
  | delivery, .object members => do
    let (meaning, others) ← takeTag name known delivery none [] members
    setAside (Datum.membersHeld others)
    content meaning (.object others)
  | _, .array [] => .error (.missingField name)
  | delivery, .array (first :: rest) => do
    let meaning ← tag known delivery first
    setAside (Datum.itemsHeld rest)
    content meaning (.array rest)
  | delivery, d => mistyped delivery d ("internally tagged enum " ++ enumeration)

end Decode

end Chaperone
