import CallAtlas.Text.Blank
import CallAtlas.Text.WordChar

/-!
Method bodies found by their surface form: modifiers, a return type, the name, parameters and a
block whose braces nest at most two deep. The leftmost such text counts.
-/

namespace CallAtlas.Java

open Text

/-- A place in a text: the character before it, the number of characters before it, and those after
it. -/
structure Place where
  before : Option Char
  index : Nat
  rest : List Char

namespace Place

def start (s : List Char) : Place := ⟨none, 0, s⟩

def advance (p : Place) (n : Nat) : Place :=
  if n = 0 then p else ⟨(p.rest.take n).getLast?, p.index + n, p.rest.drop n⟩

def isWordEdge (p : Place) : Bool :=
  (p.before.map isWordChar).getD false != (p.rest.head?.map isWordChar).getD false

def skipWhile (test : Char → Bool) (p : Place) : Place :=
  p.advance (p.rest.takeWhile test).length

def expect? (word : List Char) (p : Place) : Option Place :=
  if word.isPrefixOf p.rest then some (p.advance word.length) else none

end Place

def modifierWords : List (List Char) :=
  ["public", "protected", "private", "static", "final", "synchronized", "abstract",
    "default"].map String.toList

def modifier? (p : Place) : Option Place :=
  let word := if p.isWordEdge then modifierWords.findSome? p.expect? else none
  match word.filter Place.isWordEdge, p.rest with
  | some q, _ => some q
  | none, c :: _ => if isBlank c then some (p.advance 1) else none
  | none, [] => none

def placesAfter (step : Place → Option Place) : (fuel : Nat) → Place → List Place → List Place
  | 0, _, found => found
  | fuel + 1, p, found =>
    match step p with
    | some q => placesAfter step fuel q (q :: found)
    | none => found

def blank? (p : Place) : Option Place :=
  match p.rest with
  | c :: _ => if isBlank c then some (p.advance 1) else none
  | [] => none

def isTypeChar (c : Char) : Bool :=
  isWordChar c || ['<', '>', '[', ']', ',', '.', '?'].contains c

def typeRun? (p : Place) : Option Place :=
  let q := p.skipWhile isTypeChar
  if q.index = p.index then none else some q

def maxNesting : Nat := 2

def bodyLength? : (depth : Nat) → List Char → Option Nat
  | _, [] => none
  | depth, c :: rest =>
    if c = '{' then
      if depth < maxNesting then (bodyLength? (depth + 1) rest).map (· + 1) else none
    else if c = '}' then
      match depth with
      | 0 => some 0
      | depth + 1 => (bodyLength? depth rest).map (· + 1)
    else (bodyLength? depth rest).map (· + 1)

structure Segment where
  start : Nat
  stop : Nat
  deriving DecidableEq, Repr

def bodyAfterName? (p : Place) : Option Segment := do
  let p ← (p.skipWhile isBlank).expect? ['(']
  let p ← (p.skipWhile (· != ')')).expect? [')']
  let p := p.skipWhile isBlank
  let p := match p.expect? "throws".toList with
    | some q => q.skipWhile (· != '{')
    | none => p
  let p ← p.expect? ['{']
  let length ← bodyLength? 0 p.rest
  return ⟨p.index, p.index + length⟩

/-- The body of a method whose modifiers begin at `p`. Longer runs of modifiers are tried before
shorter ones. -/
def bodyAt? (fuel : Nat) (name : List Char) (p : Place) : Option Segment :=
  (placesAfter modifier? fuel p []).findSome? fun p => do
    let p ← typeRun? p
    (placesAfter blank? fuel p []).findSome? fun p => do
      let p ← p.expect? name
      bodyAfterName? p

/-- The leftmost body in a text. Modifiers that begin with the second of two blanks are found from
the first, so that no search starts there. -/
def bodyFrom? (fuel : Nat) (name : List Char) (before : Option Char) (index : Nat) :
    List Char → Option Segment
  | [] => none
  | c :: rest =>
    let found := if (before.map isBlank).getD false && isBlank c then none
      else bodyAt? fuel name ⟨before, index, c :: rest⟩
    match found with
    | some found => some found
    | none => bodyFrom? fuel name (some c) (index + 1) rest

def findBody? (name text : List Char) : Option Segment :=
  bodyFrom? text.length name none 0 text

def Segment.cut (segment : Segment) (source : List Char) : List Char :=
  (source.drop segment.start).take (segment.stop - segment.start)

inductive BodyError where
  | misaligned
  deriving DecidableEq, Repr

def BodyError.message : BodyError → String
  | misaligned => "search_text must line up with source"

/-- The body of the first method called `name`, without its braces and the white space at its ends.
It is found in `searchText` where that is given, and cut from `source`. Constructors and
initialisers, whose names begin with `<`, have no name in source text. -/
def extractBody (source name : List Char) (searchText : Option (List Char)) :
    Except BodyError (Option (List Char)) :=
  if name.head? = some '<' then .ok none
  else
    let text := searchText.getD source
    if text.length ≠ source.length then .error .misaligned
    else .ok ((findBody? name text).map fun segment => strip (segment.cut source))

end CallAtlas.Java
