import Chaperone.Number.Binary64
import Chaperone.Text.Quoted

/-!
# Values of a document

A `Datum` is what a configuration file or an event line holds before it is given a type.  Members
of an object keep the order in which they were written, and a name may occur twice, because a
decoder that meets a mistake reports the first one in the order of the text.
-/

namespace Chaperone

open Number

/-- A value of a document. -/
inductive Datum where
  | null
  | bool (value : Bool)
  | int (value : Int)
  | float (negative : Bool) (size : Binary64)
  | notANumber
  | string (value : String)
  | array (items : List Datum)
  | object (members : List (String × Datum))
  /-- Well formed, but beyond what can be held: a number out of range, a text with half of a
  surrogate pair, containers nested too deeply.  It may stand where nothing looks at it. -/
  | beyond
  deriving Repr, Inhabited

mutual

/-- Whether a value and everything inside it could be held. -/
def Datum.isHeld : Datum → Bool
  | .beyond => false
  | .array items => itemsHeld items
  | .object members => membersHeld members
  | _ => true

/-- Whether the values of an array could be held. -/
def Datum.itemsHeld : List Datum → Bool
  | [] => true
  | item :: rest => item.isHeld && itemsHeld rest

/-- Whether the members of an object could be held. -/
def Datum.membersHeld : List (String × Datum) → Bool
  | [] => true
  | (_, value) :: rest => value.isHeld && membersHeld rest

end

/-- How a value is named in a message. -/
def Datum.describe (style : FloatStyle) : Datum → String
  | .null => "null"
  | .bool true => "boolean `true`"
  | .bool false => "boolean `false`"
  | .int n => "integer `" ++ toString n ++ "`"
  | .float negative size =>
    "floating point `" ++ (if negative then "-" else "") ++ size.render style ++ "`"
  | .notANumber => "floating point `NaN`"
  | .string s => "string " ++ Text.quoted s
  | .array _ => "sequence"
  | .object _ => "map"
  | .beyond => "value out of bounds"

/-- The value of the first member with this name. -/
def Datum.member? (name : String) : Datum → Option Datum
  | .object members => members.lookup name
  | _ => none

end Chaperone
