import CavityConsole.Binary.Rounding
import CavityConsole.Decimal.Layout

/-!
# JSON values

Numbers keep the two readings a document can give them: a whole number within the 64-bit ranges
stays an integer, every other number is a 64-bit binary value.

An object is the list of its members in increasing order of their keys, each key once. The order is
the one of `String`, code point by code point. `Members.insert` keeps it, so a member written later
replaces an earlier one of the same key and the place where a member was written leaves no trace.
-/

namespace CavityConsole

/-- A number of a document. -/
inductive Json.Number where
  /-- A whole number from `-2 ^ 63` to `2 ^ 64 - 1`. -/
  | integer (value : Int)
  /-- Any other number. -/
  | real (value : Double)
deriving DecidableEq

/-- A JSON value. -/
inductive Json where
  /-- The value `null`. -/
  | null
  /-- A truth value. -/
  | boolean (value : Bool)
  /-- A number. -/
  | number (value : Json.Number)
  /-- A string. -/
  | string (value : String)
  /-- A list of values. -/
  | array (elements : List Json)
  /-- Members in increasing order of their keys. -/
  | object (members : List (String × Json))
deriving Inhabited

/-- The members of an object. -/
abbrev Members := List (String × Json)

/-- A protocol message: the members of the one object on its line. -/
abbrev Document := Members

namespace Members

/-- Sets a member, keeping the keys in increasing order. -/
def insert (key : String) (value : Json) : Members → Members
  | [] => [(key, value)]
  | (k, v) :: rest =>
    if key < k then (key, value) :: (k, v) :: rest
    else if key = k then (key, value) :: rest
    else (k, v) :: insert key value rest

/-- The value of a member. -/
def get? (members : Members) (key : String) : Option Json := members.lookup key

/-- Whether a member is there, whatever its value. -/
def contains (members : Members) (key : String) : Bool := (members.get? key).isSome

/-- Members in the order in which they were written; of equal keys the last one counts. -/
def ofList (written : List (String × Json)) : Members :=
  written.foldl (fun members member => members.insert member.1 member.2) []

end Members

namespace Json

/-- The name of a value's type, as messages use it. -/
def typeName : Json → String
  | .null => "null"
  | .boolean _ => "boolean"
  | .number _ => "number"
  | .string _ => "string"
  | .array _ => "array"
  | .object _ => "object"

/-- Whether a value is `null`. -/
def isNull : Json → Bool
  | .null => true
  | _ => false

/-- The text of a string value. -/
def string? : Json → Option String
  | .string s => some s
  | _ => none

/-- The nearest 32-bit value of a number. -/
def Number.toSingle : Number → Single
  | .integer i => Binary.ofInt i
  | .real x => x.convert Binary.Format.single

end Json

end CavityConsole
