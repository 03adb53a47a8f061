/-!
# Tables of code points

A class of characters is a table of closed ranges of code points in increasing order, in which a
code point is looked for by halving.
-/

namespace CavityConsole.Text

/-- Whether the ranges from `low` up to `high` hold a code point; each step halves the part of the
table that is still open. -/
def inRangesBetween (ranges : Array (Nat × Nat)) (code : Nat) : (room low high : Nat) → Bool
  | 0, _, _ => false
  | room + 1, low, high =>
    if low < high then
      let middle := (low + high) / 2
      match ranges[middle]? with
      | none => false
      | some (first, last) =>
        if code < first then inRangesBetween ranges code room low middle
        else if last < code then inRangesBetween ranges code room (middle + 1) high
        else true
    else false

/-- Whether a table holds a code point. -/
def inRanges (ranges : Array (Nat × Nat)) (code : Nat) : Bool :=
  inRangesBetween ranges code ranges.size 0 ranges.size

end CavityConsole.Text
