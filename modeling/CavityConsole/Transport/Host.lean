import CavityConsole.Text.Integer
import CavityConsole.Transport.Address

/-!
# Hosts

A host is an address or a name. Besides its usual text an address has looser ones. Four bytes may be
written in fewer than four parts, of which the last one then holds all bytes that are missing, and a
part may be in base ten, in base eight behind a zero, or in base sixteen behind `0x`. Groups may be
followed by a percent sign and the link on which they hold: its number, or, for groups that hold on
one link only, its name.

The name `localhost` is the machine itself. What other names stand for has to be asked; a text that
cannot be a name need not be asked for.
-/

namespace CavityConsole.Host

/-! ## Four bytes -/

/-- A number of at least one digit in a base. -/
def numeral (base : Nat) (digits : List Char) : Option Nat :=
  if digits.isEmpty then none
  else
    digits.foldlM (fun n c => (Json.hexValue? c).bind fun d =>
      if d < base then some (base * n + d) else none) 0

/-- A part: its base stands in front. -/
def part (cs : List Char) : Option Nat :=
  match cs with
  | ['0'] => some 0
  | '0' :: 'x' :: digits | '0' :: 'X' :: digits => numeral 16 digits
  | '0' :: digits => numeral 8 digits
  | digits => numeral 10 digits

/-- A number as so many bytes, the highest first. -/
def bytesOf (count n : Nat) : List Nat :=
  (List.range count).map fun i => n / Nat.pow 256 (count - 1 - i) % 256

/-- The four bytes that parts stand for, if there are one to four of them and each one fits its
place. -/
def bytesOfParts (parts : List Nat) : Option (List Nat) :=
  match parts.reverse with
  | [] => none
  | last :: before =>
    let missing := 4 - before.length
    if 3 < before.length ∨ before.any (255 < ·) ∨ Nat.pow 256 missing ≤ last then none
    else some (before.reverse ++ bytesOf missing last)

/-- Four bytes in a loose form. -/
def looseBytes (host : String) : Option (List Nat) :=
  ((host.splitOn ".").mapM fun text => part text.toList).bind bytesOfParts

/-! ## Groups with a link -/

/-- Whether groups hold on one link only. -/
def holdsOnLink (groups : List Nat) : Bool :=
  let first := groups.headD 0
  first / 64 == 0xfe80 / 64 || (first / 256 == 0xff && [1, 2].contains (first % 16))

/-- The links that have a name everywhere: the way of the machine to itself. -/
def linkNames : List (String × UInt32) := [("lo", 1)]

/-- The link that a text is, behind given groups. -/
def link (groups : List Nat) (text : String) : Option UInt32 :=
  match if holdsOnLink groups then linkNames.lookup text else none with
  | some number => some number
  | none =>
    match Text.boundedDigits (UInt32.size - 1) 0 text.toList with
    | .ok n => if text.isEmpty then none else some (UInt32.ofNat n)
    | .error _ => none

/-- Groups with a link behind a percent sign. -/
def linkedGroups (host : String) : Option Address :=
  let cs := host.toList
  match Address.eightGroups (cs.takeWhile (· != '%')), cs.dropWhile (· != '%') with
  | some (groups, []), _ :: text => (link groups (String.ofList text)).map (.v6 groups)
  | _, _ => none

/-! ## Names -/

/-- Whether a character may stand in a name. -/
def isNameChar (c : Char) : Bool := c.isAlphanum || c == '-' || c == '_' || c == '.'

/-- Whether a host can be a name: parts of 1 to 63 characters with points between them, at most 253
characters in all, a point perhaps behind them, and no dash in front. -/
def isName (host : String) : Bool :=
  let cs := host.toList
  let parts := host.splitOn "."
  let parts := if 1 < parts.length ∧ parts.getLast? = some "" then parts.dropLast else parts
  let length := (".".intercalate parts).length
  cs.all isNameChar && cs.head? != some '-' && length ≤ 253 &&
    (host == "." || parts.all fun part => 0 < part.length && part.length ≤ 63)

/-- The machine itself. -/
def ownName : String := "localhost"

/-- The address of the machine itself. -/
def ownAddress : Address := .v4 [127, 0, 0, 1]

/-- The address of a host for which nobody has to be asked. -/
def address? (host : String) : Option Address :=
  (Address.parse? host).or <| ((looseBytes host).map .v4).or <| (linkedGroups host).or <|
    if host.map Char.toLower = ownName then some ownAddress else none

end CavityConsole.Host
