/-!
Sets of characters given as evenly spaced runs of code points.
-/

namespace CallAtlas.Text

/-- The code points `first`, `first + step`, … up to `last`. -/
structure CharRange where
  first : Nat
  last : Nat
  step : Nat

def CharRange.contains (r : CharRange) (code : Nat) : Bool :=
  r.first ≤ code && code ≤ r.last && (code - r.first) % r.step == 0

def inRanges (ranges : List CharRange) (c : Char) : Bool :=
  ranges.any fun r => r.contains c.toNat

end CallAtlas.Text
