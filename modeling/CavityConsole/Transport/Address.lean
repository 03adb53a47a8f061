import CavityConsole.Decimal.Shortest
import CavityConsole.Json.Token

/-!
# Network addresses

An address is four bytes or eight 16-bit groups. Four bytes are written in decimal with points and
without zeros in front. Groups are written in hexadecimal with colons, at most four digits each; one
run of zero groups may be left out between two colons, and the last two groups may be written as
four bytes.

The text of an address is canonical: digits in lower case and without zeros in front, and the
longest run of at least two zero groups left out, of equally long ones the first. An address that
stands for four bytes keeps them in sight. Groups may hold on one link of the machine only; the
number of the link stands behind a percent sign.
-/

namespace CavityConsole

/-- An address of either kind. -/
inductive Address where
  /-- Four bytes. -/
  | v4 (bytes : List Nat)
  /-- Eight groups, and the number of the link on which they hold; zero is no link. -/
  | v6 (groups : List Nat) (link : UInt32)
deriving DecidableEq, Repr

namespace Address

/-- A byte in decimal: at most three digits, no zero in front of another digit. -/
def byte (cs : List Char) : Option (Nat × List Char) :=
  let digits := cs.takeWhile Char.isDigit
  let value := Nat.ofDigitChars 10 digits 0
  if digits.isEmpty ∨ 3 < digits.length ∨ 255 < value then none
  else if 1 < digits.length ∧ digits.head? = some '0' then none
  else some (value, cs.dropWhile Char.isDigit)

/-- `count` bytes with points between them. -/
def bytes : (count : Nat) → List Char → Option (List Nat × List Char)
  | 0, cs => some ([], cs)
  | 1, cs => (byte cs).map fun (b, rest) => ([b], rest)
  | count + 2, cs => do
    let (b, rest) ← byte cs
    match rest with
    | '.' :: rest =>
      let (more, rest) ← bytes (count + 1) rest
      return (b :: more, rest)
    | _ => none

/-- A group in hexadecimal: one to four digits. -/
def group (cs : List Char) : Option (Nat × List Char) :=
  let digits := cs.takeWhile fun c => (Json.hexValue? c).isSome
  if digits.isEmpty ∨ 4 < digits.length then none
  else
    some (digits.foldl (fun n c => 16 * n + (Json.hexValue? c).getD 0) 0, cs.drop digits.length)

/-- The separator in front of a group, which the first one does not have. -/
def separator (first : Bool) (cs : List Char) : Option (List Char) :=
  if first then some cs
  else
    match cs with
    | ':' :: rest => some rest
    | _ => none

/-- Up to `room` groups with colons between them, as many as there are; whether the last two of them
were written as four bytes. -/
def groups : (room : Nat) → (first : Bool) → List Char → List Nat × Bool × List Char
  | 0, _, cs => ([], false, cs)
  | room + 1, first, cs =>
    match (separator first cs).bind fun rest => if room = 0 then none else bytes 4 rest with
    | some ([a, b, c, d], rest) => ([256 * a + b, 256 * c + d], true, rest)
    | _ =>
      match (separator first cs).bind group with
      | none => ([], false, cs)
      | some (g, rest) =>
        let (more, embedded, rest) := groups room false rest
        (g :: more, embedded, rest)

/-- Eight groups, a run of zeros perhaps left out. -/
def eightGroups (cs : List Char) : Option (List Nat × List Char) :=
  let (head, embedded, rest) := groups 8 true cs
  if head.length = 8 then some (head, rest)
  else if embedded then none
  else
    match rest with
    | ':' :: ':' :: rest =>
      let (tail, _, rest) := groups (7 - head.length) true rest
      some (head ++ List.replicate (8 - head.length - tail.length) 0 ++ tail, rest)
    | _ => none

/-- The address that a text is. -/
def parse? (text : String) : Option Address :=
  match bytes 4 text.toList with
  | some (four, []) => some (.v4 four)
  | _ =>
    match eightGroups text.toList with
    | some (eight, []) => some (.v6 eight 0)
    | _ => none

/-! ## Text -/

/-- Numbers with a separator between them. -/
def separated (base : Nat) (mark : Char) (numbers : List Nat) : List Char :=
  List.intercalate [mark] (numbers.map (Nat.toDigits base))

/-- How many zeros stand at the beginning. -/
def leadingZeros (numbers : List Nat) : Nat := (numbers.takeWhile (· == 0)).length

/-- The longest run of zeros, of equally long ones the first: where it begins and how long it is. -/
def longestZeros (numbers : List Nat) : Nat × Nat :=
  (List.range numbers.length).foldl
    (fun best start =>
      let length := leadingZeros (numbers.drop start)
      if best.2 < length then (start, length) else best)
    (0, 0)

/-- Eight groups in canonical form. -/
def groupsText (numbers : List Nat) : List Char :=
  match numbers with
  | [0, 0, 0, 0, 0, 0xffff, a, b] =>
    [':', ':', 'f', 'f', 'f', 'f', ':'] ++ separated 10 '.' [a / 256, a % 256, b / 256, b % 256]
  | _ =>
    let (start, length) := longestZeros numbers
    if length ≤ 1 then separated 16 ':' numbers
    else
      separated 16 ':' (numbers.take start) ++ ':' :: ':' ::
        separated 16 ':' (numbers.drop (start + length))

/-- The link behind groups, if they hold on one. -/
def linkText (link : UInt32) : List Char :=
  if link = 0 then [] else '%' :: Decimal.digitText link.toNat

/-- An address with a port, groups between brackets. -/
def textWithPort (address : Address) (port : UInt16) : String :=
  let behind := ':' :: Decimal.digitText port.toNat
  String.ofList <|
    match address with
    | .v4 numbers => separated 10 '.' numbers ++ behind
    | .v6 numbers link => '[' :: groupsText numbers ++ linkText link ++ ']' :: behind

end Address

end CavityConsole
