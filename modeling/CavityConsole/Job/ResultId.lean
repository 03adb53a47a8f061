import CavityConsole.Json.Shape
import CavityConsole.Text.Blank
import CavityConsole.Text.Integer

/-!
# Identifiers of stored results

A phasing result is stored under a 64-bit number; corrections are applied by naming such results.
-/

namespace CavityConsole

/-- The identifier of a stored result. -/
structure ResultId where
  /-- The number of the result. -/
  value : UInt64
deriving DecidableEq, Repr

namespace ResultId

/-- The digits of an identifier, on the wire as well as in messages. -/
def text (id : ResultId) : List Char := Decimal.digitText id.value.toNat

/-- An identifier as typed, white space around it left aside. -/
def read (typed : String) : Except Text.IntegerError ResultId :=
  (Text.readNat (UInt64.size - 1) (Text.trim typed.toList)).map fun n => ⟨UInt64.ofNat n⟩

/-- An identifier as a JSON text has it. -/
def ofJsonText (text : String) : Except Json.Problem ResultId :=
  Json.readAs
    (fun room =>
      Json.Shape.checked room fun found =>
        (found.requireNatural (UInt64.size - 1) "u64").map fun n => ⟨UInt64.ofNat n⟩)
    text

end ResultId

end CavityConsole
