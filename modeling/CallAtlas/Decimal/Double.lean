import CallAtlas.Decimal.Shortest

/-!
Double-precision numbers by their bits, and their text: the shortest digits that read back,
positional for decimal exponents from -4 to 15 and with a signed exponent of two digits or more
otherwise.
-/

namespace CallAtlas.Decimal

structure Double where
  bits : UInt64
  deriving DecidableEq, Repr

namespace Double

def sign (d : Double) : Bool := d.bits.toNat >>> 63 == 1

def biased (d : Double) : Nat := (d.bits.toNat >>> 52) % (1 <<< 11)

def fraction (d : Double) : Nat := d.bits.toNat % (1 <<< 52)

/-- The number with the value of single-precision `bits`. -/
def ofSingle (bits : UInt32) : Double :=
  let sign := bits.toNat >>> 31
  let biased := (bits.toNat >>> 23) % (1 <<< 8)
  let fraction := bits.toNat % (1 <<< 23)
  let (exponent, wide) :=
    if biased = 255 then (2047, fraction <<< 29)
    else if biased ≠ 0 then (biased + 896, fraction <<< 29)
    else if fraction = 0 then (0, 0)
    else
      -- a subnormal number: its first bit becomes the implicit one
      let shift := 23 - fraction.log2
      (897 - shift, (fraction <<< (shift + 29)) - (1 <<< 52))
  ⟨((sign <<< 63) + (exponent <<< 52) + wide).toUInt64⟩

def magnitude (d : Double) : Binary :=
  if d.biased = 0 then ⟨d.fraction, -1074, false⟩
  else ⟨(1 <<< 52) + d.fraction, d.biased - 1075, d.fraction == 0 && d.biased != 1⟩

end Double

def significant (n : Nat) : List Char :=
  ((Nat.toDigits 10 n).reverse.dropWhile (· == '0')).reverse

def positional (digits : List Char) (lead : Int) : List Char :=
  if lead < 0 then '0' :: '.' :: List.replicate (lead.natAbs - 1) '0' ++ digits
  else
    let whole := lead.natAbs + 1
    let fraction := digits.drop whole
    digits.take whole ++ List.replicate (whole - digits.length) '0' ++
      '.' :: (if fraction.isEmpty then ['0'] else fraction)

def exponential (digits : List Char) (lead : Int) : List Char :=
  let power := Nat.toDigits 10 lead.natAbs
  digits.take 1 ++ (if digits.length ≤ 1 then [] else '.' :: digits.drop 1) ++
    'e' :: (if lead < 0 then '-' else '+') :: (if power.length < 2 then '0' :: power else power)

def Digits.text (d : Digits) : List Char :=
  let digits := Nat.toDigits 10 d.digits
  let lead := d.exponent + (digits.length - 1 : Nat)
  if lead < -4 ∨ 16 ≤ lead then exponential (significant d.digits) lead
  else positional (significant d.digits) lead

def Double.text (d : Double) : String :=
  if d.biased = 2047 ∧ d.fraction ≠ 0 then "nan"
  else
    let size :=
      if d.biased = 2047 then ['i', 'n', 'f']
      else if d.biased = 0 ∧ d.fraction = 0 then ['0', '.', '0']
      else d.magnitude.shortest.text
    String.ofList (if d.sign then '-' :: size else size)

end CallAtlas.Decimal
