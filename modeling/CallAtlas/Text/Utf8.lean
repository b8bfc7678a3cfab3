/-!
UTF-8: the bytes of a text, and the text of arbitrary bytes, in which every longest part that could
begin a character and does not go on to form one becomes U+FFFD.
-/

namespace CallAtlas.Text

def encodeCode (code : Nat) : List UInt8 :=
  if code < 0x80 then [code.toUInt8]
  else if code < 0x800 then
    [(0xC0 + code / 0x40).toUInt8, (0x80 + code % 0x40).toUInt8]
  else if code < 0x10000 then
    [(0xE0 + code / 0x1000).toUInt8, (0x80 + code / 0x40 % 0x40).toUInt8,
      (0x80 + code % 0x40).toUInt8]
  else
    [(0xF0 + code / 0x40000).toUInt8, (0x80 + code / 0x1000 % 0x40).toUInt8,
      (0x80 + code / 0x40 % 0x40).toUInt8, (0x80 + code % 0x40).toUInt8]

def encodeUtf8 (s : List Char) : List UInt8 :=
  s.flatMap fun c => encodeCode c.toNat

/-- What a lead byte asks for: the number of continuation bytes, the bounds of the first of them and
the payload bits of the lead byte itself. -/
structure Lead where
  count : Nat
  low : Nat
  high : Nat
  bits : Nat

/-- The lead bytes of sequences without overlong forms and up to U+10FFFF. Surrogates can be let
through. -/
def lead? (surrogates : Bool) (b : Nat) : Option Lead :=
  if b < 0x80 then some ⟨0, 0x80, 0xBF, b⟩
  else if b < 0xC2 then none
  else if b < 0xE0 then some ⟨1, 0x80, 0xBF, b - 0xC0⟩
  else if b = 0xE0 then some ⟨2, 0xA0, 0xBF, 0⟩
  else if b = 0xED then some ⟨2, 0x80, if surrogates then 0xBF else 0x9F, 0xD⟩
  else if b < 0xF0 then some ⟨2, 0x80, 0xBF, b - 0xE0⟩
  else if b = 0xF0 then some ⟨3, 0x90, 0xBF, 0⟩
  else if b < 0xF4 then some ⟨3, 0x80, 0xBF, b - 0xF0⟩
  else if b = 0xF4 then some ⟨3, 0x80, 0x8F, 4⟩
  else none

def continuation : (count low high acc seen : Nat) → List UInt8 → Nat × Nat × List UInt8
  | 0, _, _, acc, seen, rest => (acc, seen, rest)
  | _ + 1, _, _, acc, seen, [] => (acc, seen, [])
  | count + 1, low, high, acc, seen, b :: rest =>
    if low ≤ b.toNat ∧ b.toNat ≤ high then
      continuation count 0x80 0xBF (acc * 0x40 + (b.toNat - 0x80)) (seen + 1) rest
    else (acc, seen, b :: rest)

def decodeStep (b : UInt8) (rest : List UInt8) : Option Nat × List UInt8 :=
  match lead? false b.toNat with
  | none => (none, rest)
  | some lead =>
    let (code, seen, after) := continuation lead.count lead.low lead.high lead.bits 0 rest
    (if seen = lead.count then some code else none, after)

def replacement : Char := Char.ofNat 0xFFFD

def decodeLossyUpTo : (fuel : Nat) → List UInt8 → List Char
  | 0, _ => []
  | _ + 1, [] => []
  | fuel + 1, b :: rest =>
    let (code, after) := decodeStep b rest
    (code.map Char.ofNat).getD replacement :: decodeLossyUpTo fuel after

def decodeLossy (bytes : List UInt8) : List Char :=
  decodeLossyUpTo bytes.length bytes

/-- Every line end as a line feed: a carriage return counts as one, alone or before a line feed. -/
def unifyLineEnds : List Char → List Char
  | [] => []
  | '\r' :: '\n' :: rest => '\n' :: unifyLineEnds rest
  | c :: rest => (if c = '\r' then '\n' else c) :: unifyLineEnds rest

end CallAtlas.Text
