import CallAtlas.Java.Outline
import CallAtlas.Text.Blank

/-!
The tokens of source text with their places. Comments and white space are left out; the parts of
operators and numbers are tokens of their own, since only words, brackets and a few marks matter for
the outline.
-/

namespace CallAtlas.Java

open Text

inductive Lexeme where
  | skipped
  | word
  | literal
  | doubleColon
  | mark (c : Char)
  deriving DecidableEq, Repr

def isSeparator (c : Char) : Bool := isBlank c || c.toNat == 0xFEFF

def isNameChar (c : Char) : Bool :=
  c.isAlphanum || c == '_' || c == '$' || (0x80 ≤ c.toNat && !isSeparator c)

def lengthThrough (stop : List Char) : List Char → Nat
  | [] => 0
  | c :: rest => if stop.isPrefixOf (c :: rest) then stop.length else 1 + lengthThrough stop rest

def quotes : List Char → List Char
  | '"' :: '"' :: '"' :: _ => ['"', '"', '"']
  | '"' :: _ => ['"']
  | '\'' :: _ => ['\'']
  | _ => []

/-- The length of a literal up to the end of the first `stop`, or all of it. A backslash takes the
next character with it; a backslash and a brace begin an expression in it, which ends with the
partner of the brace and may hold literals itself. `depth` counts the braces that are open there,
with `stop` empty. -/
def literalLength : (fuel : Nat) → (stop : List Char) → (depth : Nat) → List Char → Nat
  | 0, _, _, _ => 0
  | _ + 1, _, _, [] => 0
  | fuel + 1, [], depth, c :: rest =>
    let inner := quotes (c :: rest)
    if inner ≠ [] then
      let length := inner.length + literalLength fuel inner 0 (rest.drop (inner.length - 1))
      length + literalLength fuel [] depth ((c :: rest).drop length)
    else if c = '}' then (if depth = 0 then 1 else 1 + literalLength fuel [] (depth - 1) rest)
    else 1 + literalLength fuel [] (if c = '{' then depth + 1 else depth) rest
  | fuel + 1, stop, depth, '\\' :: '{' :: rest =>
    let length := literalLength fuel [] 0 rest
    2 + length + literalLength fuel stop depth (rest.drop length)
  | fuel + 1, stop, depth, '\\' :: _ :: rest => 2 + literalLength fuel stop depth rest
  | fuel + 1, stop, depth, c :: rest =>
    if stop.isPrefixOf (c :: rest) then stop.length else 1 + literalLength fuel stop depth rest

def lexeme : List Char → Lexeme × Nat
  | '/' :: '/' :: rest => (.skipped, 2 + (rest.takeWhile (· != '\n')).length)
  | '/' :: '*' :: rest => (.skipped, 2 + lengthThrough ['*', '/'] rest)
  | ':' :: ':' :: _ => (.doubleColon, 2)
  | c :: rest =>
    let marks := quotes (c :: rest)
    if marks ≠ [] then
      (.literal, marks.length + literalLength rest.length marks 0 (rest.drop (marks.length - 1)))
    else if isSeparator c then (.skipped, 1)
    else if isNameChar c then (.word, 1 + (rest.takeWhile isNameChar).length)
    else (.mark c, 1)
  | [] => (.skipped, 1)

structure Token where
  lexeme : Lexeme
  text : List Char
  start : Point
  stop : Nat
  deriving DecidableEq, Repr

def tokensFrom : (fuel : Nat) → Point → List Char → List Token
  | 0, _, _ => []
  | _ + 1, _, [] => []
  | fuel + 1, p, c :: rest =>
    let (kind, length) := lexeme (c :: rest)
    let taken := (c :: rest).take length
    let after := p.afterAll taken
    let more := tokensFrom fuel after ((c :: rest).drop length)
    match kind with
    | .skipped => more
    | .word => ⟨.word, taken, p, after.byte⟩ :: more
    | _ => ⟨kind, [], p, after.byte⟩ :: more

def tokens (source : List Char) : List Token := tokensFrom source.length .zero source

end CallAtlas.Java
