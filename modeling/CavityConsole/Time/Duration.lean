import CavityConsole.Decimal.Layout

/-!
# Lengths of time

Waiting times are whole numbers of nanoseconds. Their text counts in the largest of `s`, `ms`, `µs`
and `ns` that makes the whole part at least one, and writes the rest as a fraction without zeros at
its end.
-/

namespace CavityConsole

/-- A length of time. -/
structure Duration where
  /-- Its nanoseconds. -/
  nanoseconds : Nat
deriving DecidableEq, Repr, Inhabited

namespace Duration

/-- So many seconds. -/
def ofSeconds (n : Nat) : Duration := ⟨n * 1000000000⟩

/-- So many microseconds. -/
def ofMicroseconds (n : Nat) : Duration := ⟨n * 1000⟩

/-- So many milliseconds. -/
def ofMilliseconds (n : Nat) : Duration := ⟨n * 1000000⟩

/-- The whole milliseconds of a length of time. -/
def milliseconds (d : Duration) : Nat := d.nanoseconds / 1000000

/-- The digits of a fraction of `width` places, without zeros at its end. -/
def fractionDigits (width n : Nat) : List Char :=
  let digits := Decimal.digitText n
  let padded := List.replicate (width - digits.length) '0' ++ digits
  (padded.reverse.dropWhile (· == '0')).reverse

/-- `n / 10 ^ width` with a fraction where one is needed. -/
def amountText (width n : Nat) : List Char :=
  let fraction := fractionDigits width (n % Nat.pow 10 width)
  Decimal.digitText (n / Nat.pow 10 width) ++ (if fraction.isEmpty then [] else '.' :: fraction)

/-- The text of a length of time. -/
def text (d : Duration) : String :=
  let n := d.nanoseconds
  String.ofList <|
    if 1000000000 ≤ n then amountText 9 n ++ ['s']
    else if 1000000 ≤ n then amountText 6 n ++ ['m', 's']
    else if 1000 ≤ n then amountText 3 n ++ ['µ', 's']
    else amountText 0 n ++ ['n', 's']

instance : ToString Duration := ⟨text⟩

end Duration

end CavityConsole
