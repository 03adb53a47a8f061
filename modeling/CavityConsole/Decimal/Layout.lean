import CavityConsole.Decimal.Shortest

/-!
# Writing binary values as text

The digits come from `Decimal.shortest`; a `Layout` says for which magnitudes they are written
positionally. Positional text always has a point with a digit on both sides; otherwise the text is
`d.ddde±x`, without a point behind a single digit and with the sign of a positive exponent written.
-/

namespace CavityConsole.Decimal

/-- The exponents of a first digit that are written positionally. -/
structure Layout where
  /-- The least of them. -/
  least : Int
  /-- The greatest of them. -/
  greatest : Int

/-- The text of an integer, a minus sign in front of a negative one. -/
def integerText (i : Int) : List Char :=
  if i < 0 then '-' :: digitText i.natAbs else digitText i.natAbs

/-- Digits with a point after the first `whole` of them, filled up with zeros on either side. -/
def pointText (digits : List Char) (whole : Int) : List Char :=
  if whole ≤ 0 then
    '0' :: '.' :: (List.replicate (-whole).toNat '0' ++ digits)
  else if digits.length ≤ whole.toNat then
    digits ++ List.replicate (whole.toNat - digits.length) '0' ++ ['.', '0']
  else
    digits.take whole.toNat ++ '.' :: digits.drop whole.toNat

/-- Digits with a point after the first, and the exponent of that first digit. -/
def exponentText (digits : List Char) (exponent : Int) : List Char :=
  let fraction := digits.drop 1
  digits.take 1 ++ (if fraction.isEmpty then [] else '.' :: fraction) ++
    'e' :: (if exponent < 0 then [] else ['+']) ++ integerText exponent

/-- The text of a positive decimal. -/
def Layout.decimalText (layout : Layout) (d : Decimal) : List Char :=
  let digits := digitText d.digits
  let exponent := d.scientific
  if layout.least ≤ exponent ∧ exponent ≤ layout.greatest then pointText digits (exponent + 1)
  else exponentText digits exponent

/-- The text of a finite binary value. -/
def Layout.text (layout : Layout) {f : Binary.Format} (x : Binary f) : List Char :=
  let magnitude :=
    if x.isZero then ['0', '.', '0'] else layout.decimalText (shortest f x.code)
  if x.negative then '-' :: magnitude else magnitude

end CavityConsole.Decimal
