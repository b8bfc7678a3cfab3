/-!
The shortest decimal for a binary floating-point number: the fewest digits that lie closer to it
than to any other number of its format.
-/

namespace CallAtlas.Decimal

/-- A positive binary number `mantissa * 2 ^ exponent`. `lowest` marks a mantissa whose lower
neighbour is half a step away, the smallest one of its power of two. -/
structure Binary where
  mantissa : Nat
  exponent : Int
  lowest : Bool

structure Digits where
  digits : Nat
  exponent : Int

def scaled (n base : Nat) (e : Int) : Nat × Nat :=
  if e < 0 then (n, base.pow e.natAbs) else (n * base.pow e.natAbs, 1)

/-- Four times the number, as a fraction, with the bounds of what rounds to it in the same unit:
between those bounds only this number is nearest. -/
structure Interval where
  low : Nat
  value : Nat
  high : Nat
  unit : Nat
  closed : Bool

def Binary.interval (b : Binary) : Interval :=
  let (scale, unit) := scaled 1 2 (b.exponent - 2)
  { low := (4 * b.mantissa - if b.lowest then 1 else 2) * scale
    value := 4 * b.mantissa * scale
    high := (4 * b.mantissa + 2) * scale
    unit := unit
    closed := b.mantissa % 2 == 0 }

def Interval.holds (i : Interval) (digits : Nat) (e : Int) : Bool :=
  let (num, den) := scaled digits 10 e
  let point := num * i.unit
  if i.closed then i.low * den ≤ point && point ≤ i.high * den
  else i.low * den < point && point < i.high * den

/-- The value divided by `10 ^ e`, rounded down, and whether the upper neighbour is nearer. A tie
goes to the even neighbour. -/
def Interval.floorAt (i : Interval) (e : Int) : Nat × Bool :=
  let (num, den) := scaled 1 10 (-e)
  let whole := i.value * num
  let part := i.unit * den
  let d := whole / part
  let twice := 2 * (whole % part)
  (d, part < twice || (twice == part && d % 2 == 1))

def Interval.leading (i : Interval) : Int :=
  let rec down : Nat → Int → Int
    | 0, e => e
    | fuel + 1, e => if 0 < (i.floorAt e).1 then e else down fuel (e - 1)
  down 700 330

def Interval.onGrid? (i : Interval) (e : Int) : Option Digits :=
  let (d, up) := i.floorAt e
  let first := if up then d + 1 else d
  let second := if up then d else d + 1
  if i.holds first e then some ⟨first, e⟩
  else if i.holds second e then some ⟨second, e⟩
  else none

def Interval.shortestFrom (i : Interval) : Nat → Int → Digits
  | 0, e => ⟨(i.floorAt e).1, e⟩
  | fuel + 1, e => (i.onGrid? e).getD (i.shortestFrom fuel (e - 1))

/-- Seventeen digits tell any two numbers of the widest format apart. -/
def Binary.shortest (b : Binary) : Digits :=
  b.interval.shortestFrom 17 b.interval.leading

end CallAtlas.Decimal
