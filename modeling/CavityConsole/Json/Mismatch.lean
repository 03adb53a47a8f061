import CavityConsole.Json.Printer
import CavityConsole.Text.Quoted

/-!
# Values of the wrong shape

A value that was read without a fault may still not be what a place asks for. A `Mismatch` says what
was found and what was expected there.
-/

namespace CavityConsole.Json

/-- What stands where something else was expected. -/
inductive Found where
  /-- The value `null`. -/
  | null
  /-- A truth value. -/
  | boolean (value : Bool)
  /-- A whole number. -/
  | integer (value : Int)
  /-- A number that is not whole. -/
  | real (value : Double)
  /-- A string. -/
  | string (value : String)
  /-- A list. -/
  | sequence
  /-- An object. -/
  | map
deriving DecidableEq

/-- What a value is, for a message. -/
def found : Json → Found
  | .null => .null
  | .boolean b => .boolean b
  | .number (.integer i) => .integer i
  | .number (.real x) => .real x
  | .string s => .string s
  | .array _ => .sequence
  | .object _ => .map

/-- The wording of what was found. -/
def Found.text : Found → String
  | .null => "null"
  | .boolean b => "boolean `" ++ String.ofList (booleanText b) ++ "`"
  | .integer i => "integer `" ++ String.ofList (Decimal.integerText i) ++ "`"
  | .real x => "floating point `" ++ String.ofList (layout.text x) ++ "`"
  | .string s => "string " ++ Text.quoted s
  | .sequence => "sequence"
  | .map => "map"

/-- Why a value does not have the shape asked for. -/
inductive Mismatch where
  /-- A value of another kind. -/
  | wrongType (found : Found) (expected : String)
  /-- A whole number outside the range. -/
  | outOfRange (value : Int) (expected : String)
  /-- An object without a member that has no default. -/
  | missingField (name : String)
  /-- A member that an object has twice. -/
  | duplicateField (name : String)
  /-- A list with the wrong number of elements. -/
  | wrongLength (length : Nat) (expected : String)
  /-- A name that is none of those allowed. -/
  | unknownName (name : String) (expected : String)
deriving DecidableEq

/-- The wording of a mismatch. -/
def Mismatch.message : Mismatch → String
  | .wrongType found expected => "invalid type: " ++ found.text ++ ", expected " ++ expected
  | .outOfRange value expected =>
    "invalid value: " ++ (Found.integer value).text ++ ", expected " ++ expected
  | .missingField name => "missing field `" ++ name ++ "`"
  | .duplicateField name => "duplicate field `" ++ name ++ "`"
  | .wrongLength length expected =>
    "invalid length " ++ String.ofList (Decimal.digitText length) ++ ", expected " ++ expected
  | .unknownName name expected => "unknown variant `" ++ name ++ "`, expected " ++ expected

/-! ## Simple shapes -/

/-- A truth value. -/
def readBoolean : Json → Except Mismatch Bool
  | .boolean b => .ok b
  | other => .error (.wrongType other.found "a boolean")

/-- A number of any kind, rounded to 32 bits. -/
def readSingle : Json → Except Mismatch Single
  | .number n => .ok n.toSingle
  | other => .error (.wrongType other.found "f32")

/-- A whole number that fits 32 bits with a sign. -/
def readInt32 : Json → Except Mismatch Int32
  | .number (.integer i) =>
    if Int32.minValue.toInt ≤ i ∧ i ≤ Int32.maxValue.toInt then .ok (Int32.ofInt i)
    else .error (.outOfRange i "i32")
  | other => .error (.wrongType other.found "i32")

/-- A string. -/
def readString : Json → Except Mismatch String
  | .string s => .ok s
  | other => .error (.wrongType other.found "a string")

/-- A list of strings; the first element that is none is reported. -/
def readStrings : Json → Except Mismatch (List String)
  | .array elements => elements.mapM readString
  | other => .error (.wrongType other.found "a sequence")

end CavityConsole.Json
