/-!
# Reading whole numbers

A whole number is an optional sign and at least one decimal digit, nothing else. The number is read
from the left within given bounds, and the first problem met is the one reported: a character that
is no digit is reported before the overflow that the same place would cause.
-/

namespace CavityConsole.Text

/-- Why a text is not a whole number within its bounds. -/
inductive IntegerError where
  /-- There is no text. -/
  | empty
  /-- A character is not a digit, or a sign stands alone. -/
  | invalidDigit
  /-- The number exceeds the upper bound. -/
  | tooLarge
  /-- The number falls below the lower bound. -/
  | tooSmall
deriving DecidableEq, Repr

/-- The wording of the problem. -/
def IntegerError.message : IntegerError → String
  | .empty => "cannot parse integer from empty string"
  | .invalidDigit => "invalid digit found in string"
  | .tooLarge => "number too large to fit in target type"
  | .tooSmall => "number too small to fit in target type"

/-- The value of a decimal digit. -/
def digitValue (c : Char) : Nat := c.toNat - '0'.toNat

/-- The value of a digit string read from the left, up to a bound. -/
def boundedDigits (bound : Nat) : (soFar : Nat) → List Char → Except IntegerError Nat
  | soFar, [] => .ok soFar
  | soFar, c :: rest =>
    if !c.isDigit then .error .invalidDigit
    else if bound < 10 * soFar + digitValue c then .error .tooLarge
    else boundedDigits bound (10 * soFar + digitValue c) rest

/-- A natural number of at most `bound`; a plus sign may stand in front. -/
def readNat (bound : Nat) : List Char → Except IntegerError Nat
  | [] => .error .empty
  | ['+'] => .error .invalidDigit
  | '+' :: digits => boundedDigits bound 0 digits
  | digits => boundedDigits bound 0 digits

/-- An integer from `-2 ^ (bits - 1)` to `2 ^ (bits - 1) - 1`; either sign may stand in front. -/
def readInt (bits : Nat) : List Char → Except IntegerError Int
  | ['-'] => .error .invalidDigit
  | '-' :: digits =>
    match boundedDigits (Nat.pow 2 (bits - 1)) 0 digits with
    | .ok n => .ok (-(n : Int))
    | .error .tooLarge => .error .tooSmall
    | .error e => .error e
  | text => (readNat (Nat.pow 2 (bits - 1) - 1) text).map Int.ofNat

end CavityConsole.Text
