import CallAtlas.Text.Utf8

/-!
The outline of source text: the tree of its type declarations, its methods, its enum constants and
the expressions that create objects, each with its place in the text.
-/

namespace CallAtlas.Java

open Text

/-- A place in source text: the bytes before it, its line and the bytes before it on that line. -/
structure Point where
  byte : Nat
  line : Nat
  column : Nat
  deriving DecidableEq, Repr

def utf8Size (c : Char) : Nat := (encodeCode c.toNat).length

def Point.zero : Point := ⟨0, 0, 0⟩

def Point.after (p : Point) (c : Char) : Point :=
  if c = '\n' then ⟨p.byte + 1, p.line + 1, 0⟩
  else ⟨p.byte + utf8Size c, p.line, p.column + utf8Size c⟩

def Point.afterAll (p : Point) (s : List Char) : Point := s.foldl Point.after p

structure Span where
  start : Point
  stop : Nat
  deriving DecidableEq, Repr

structure MethodSketch where
  name : String
  parameters : List String
  body : Option String
  deriving DecidableEq, Repr

inductive NodeKind where
  | type (name : String)
  | method (sketch : MethodSketch)
  | creation
  | constant
  | classBody
  | other
  deriving DecidableEq, Repr

inductive Node where
  | mk (kind : NodeKind) (span : Span) (children : List Node)

def Node.kind : Node → NodeKind
  | mk kind _ _ => kind

def Node.span : Node → Span
  | mk _ span _ => span

def Node.children : Node → List Node
  | mk _ _ children => children

structure Outline where
  package : Option String
  root : Node

def Outline.bare : Outline := ⟨none, .mk .other ⟨.zero, 0⟩ []⟩

end CallAtlas.Java
