/-!
Texts cut at the last or the first place of a character.
-/

namespace CallAtlas.Text

def afterLast (c : Char) (s : List Char) : List Char :=
  (s.reverse.takeWhile (· != c)).reverse

def beforeLast (c : Char) (s : List Char) : List Char :=
  ((s.reverse.dropWhile (· != c)).drop 1).reverse

def beforeFirst (c : Char) (s : List Char) : List Char :=
  s.takeWhile (· != c)

def splitAtEach (c : Char) : List Char → List (List Char)
  | [] => [[]]
  | x :: rest =>
    if x = c then [] :: splitAtEach c rest
    else match splitAtEach c rest with
      | [] => [[x]]
      | part :: parts => (x :: part) :: parts

def occursIn (part : List Char) : List Char → Bool
  | [] => part.isEmpty
  | c :: rest => part.isPrefixOf (c :: rest) || occursIn part rest

def startsWithAny (parts : List String) (s : String) : Bool :=
  parts.any fun part => part.toList.isPrefixOf s.toList

end CallAtlas.Text
