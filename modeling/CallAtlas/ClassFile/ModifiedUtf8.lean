import CallAtlas.ClassFile.FormatError
import CallAtlas.Text.Utf8

/-!
The text of class files. U+0000 is stored as two bytes and a character beyond U+FFFF as a pair of
surrogates of three bytes each; a surrogate without its partner reads as U+FFFD.
-/

namespace CallAtlas.ClassFile.ModifiedUtf8

open Text

def unpackNul : List UInt8 → List UInt8
  | 0xC0 :: 0x80 :: rest => 0x00 :: unpackNul rest
  | b :: rest => b :: unpackNul rest
  | [] => []

/-- The first code point, surrogates included, and the bytes after it. -/
def nextCode? : List UInt8 → Option (Nat × List UInt8)
  | [] => none
  | b :: rest =>
    match lead? true b.toNat with
    | none => none
    | some lead =>
      let (code, seen, after) := continuation lead.count lead.low lead.high lead.bits 0 rest
      if seen = lead.count then some (code, after) else none

def codesUpTo : (fuel : Nat) → List UInt8 → Option (List Nat)
  | _, [] => some []
  | 0, _ :: _ => none
  | fuel + 1, b :: rest => do
    let (code, after) ← nextCode? (b :: rest)
    let codes ← codesUpTo fuel after
    return code :: codes

def codes? (bytes : List UInt8) : Option (List Nat) :=
  codesUpTo bytes.length bytes

def isHighSurrogate (code : Nat) : Bool := 0xD800 ≤ code && code ≤ 0xDBFF

def isLowSurrogate (code : Nat) : Bool := 0xDC00 ≤ code && code ≤ 0xDFFF

/-- Joins each high surrogate with a low one right after it and replaces every other surrogate. -/
def pairSurrogates : List Nat → List Char
  | [] => []
  | [code] => [if isHighSurrogate code || isLowSurrogate code then replacement else Char.ofNat code]
  | high :: low :: rest =>
    if isHighSurrogate high && isLowSurrogate low then
      Char.ofNat (0x10000 + (high - 0xD800) * 0x400 + (low - 0xDC00)) :: pairSurrogates rest
    else if isHighSurrogate high || isLowSurrogate high then
      replacement :: pairSurrogates (low :: rest)
    else Char.ofNat high :: pairSurrogates (low :: rest)

def decode (bytes : List UInt8) : Except FormatError String :=
  match codes? (unpackNul bytes) with
  | some codes => .ok (String.ofList (pairSurrogates codes))
  | none => .error .malformedText

def encodeChar (c : Char) : List UInt8 :=
  let code := c.toNat
  if code = 0 then [0xC0, 0x80]
  else if code < 0x10000 then encodeCode code
  else encodeCode (0xD800 + (code - 0x10000) / 0x400) ++
  encodeCode (0xDC00 + (code - 0x10000) % 0x400)

def encode (s : String) : List UInt8 := s.toList.flatMap encodeChar

end CallAtlas.ClassFile.ModifiedUtf8
