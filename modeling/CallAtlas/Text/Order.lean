/-!
Texts in the order of their code points.
-/

namespace CallAtlas.Text

def sortTexts (xs : List String) : List String := xs.mergeSort fun a b => a ≤ b

end CallAtlas.Text
