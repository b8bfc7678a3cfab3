import CallAtlas.Text.CharRange

/-!
White space, and texts without it at their ends.
-/

namespace CallAtlas.Text

/-- White space, the four information separators U+001C to U+001F included. -/
def blankRanges : List CharRange :=
  [⟨0x09, 0x0D, 1⟩, ⟨0x1C, 0x20, 1⟩, ⟨0x85, 0x85, 1⟩, ⟨0xA0, 0xA0, 1⟩, ⟨0x1680, 0x1680, 1⟩,
   ⟨0x2000, 0x200A, 1⟩, ⟨0x2028, 0x2029, 1⟩, ⟨0x202F, 0x202F, 1⟩, ⟨0x205F, 0x205F, 1⟩,
   ⟨0x3000, 0x3000, 1⟩]

def isBlank (c : Char) : Bool := inRanges blankRanges c

def strip (s : List Char) : List Char :=
  ((s.dropWhile isBlank).reverse.dropWhile isBlank).reverse

end CallAtlas.Text
