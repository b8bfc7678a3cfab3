/-!
Hexadecimal numbers of a fixed width.
-/

namespace CallAtlas.Text

def hexDigits : Nat → Nat → List Char
  | 0, _ => []
  | width + 1, n => hexDigits width (n / 16) ++ [Nat.digitChar (n % 16)]

def lowerHex (width n : Nat) : String :=
  String.ofList (hexDigits width n)

def upperHex (width n : Nat) : String :=
  String.ofList ((hexDigits width n).map Char.toUpper)

end CallAtlas.Text
