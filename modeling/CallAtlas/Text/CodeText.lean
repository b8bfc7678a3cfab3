/-!
Texts by their code points. Unlike a string, such a text may hold half of a surrogate pair.
-/

namespace CallAtlas.Text

structure CodeText where
  codes : List Nat
  deriving DecidableEq, Repr

namespace CodeText

def ofString (s : String) : CodeText := ⟨s.toList.map Char.toNat⟩

instance : Coe String CodeText := ⟨ofString⟩

instance : Append CodeText := ⟨fun a b => ⟨a.codes ++ b.codes⟩⟩

instance : LE CodeText := ⟨fun a b => b.codes.lex a.codes Nat.blt = false⟩

instance (a b : CodeText) : Decidable (a ≤ b) :=
  inferInstanceAs (Decidable (b.codes.lex a.codes Nat.blt = false))

def render (char : Char → List Char) (half : Nat → List Char) (text : CodeText) : String :=
  String.ofList (text.codes.flatMap fun code => if code.isValidChar then char (Char.ofNat code)
    else half code)

end CodeText

end CallAtlas.Text
