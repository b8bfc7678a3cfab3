import CallAtlas.Java.BodyPattern
import CallAtlas.Java.Outline
import CallAtlas.Table
import CallAtlas.Text.Hex

/-!
The index of source text: the types it declares by their binary names, with the methods that each
declares itself and the parts of its text that belong to other types.
-/

namespace CallAtlas.Java

structure SourceMethod where
  name : String
  parameters : List String
  line : Nat
  column : Nat
  body : Option String
  deriving DecidableEq, Repr

/-- A type declaration. Places are in bytes; `foreign` lists what lies inside and belongs to nested,
local and anonymous types. -/
structure SourceType where
  simpleName : String
  binaryName : String
  line : Nat
  column : Nat
  start : Nat
  stop : Nat
  foreign : List Segment := []
  methods : Table String (List SourceMethod) := []
  deriving DecidableEq, Repr

abbrev FileIndex := Table String SourceType

/-- The package, then the enclosing types from the outermost on with `$` between them. -/
def nestedName (package : Option String) (types : List String) : String :=
  let names := "$".intercalate types
  match package with
  | some name => if name.isEmpty then names else name ++ "." ++ names
  | none => names

def Node.segment (node : Node) : Segment := ⟨node.span.start.byte, node.span.stop⟩

mutual

def innerSegments : Node → List Segment
  | .mk _ _ children => innerSegmentsOf children

def innerSegmentsOf : List Node → List Segment
  | [] => []
  | node :: rest =>
    match node.kind with
    | .type _ | .classBody => node.segment :: innerSegmentsOf rest
    | _ => innerSegments node ++ innerSegmentsOf rest

end

def SourceMethod.ofSketch (sketch : MethodSketch) (span : Span) : SourceMethod :=
  { name := sketch.name
    parameters := sketch.parameters
    line := span.start.line
    column := span.start.column
    body := sketch.body }

def SourceType.addForeign (segments : List Segment) (type : SourceType) : SourceType :=
  { type with foreign := type.foreign ++ segments }

def SourceType.addMethod (method : SourceMethod) (type : SourceType) : SourceType :=
  { type with methods := type.methods.modify method.name [] (· ++ [method]) }

namespace FileIndex

def update (name : String) (change : SourceType → SourceType) (index : FileIndex) : FileIndex :=
  index.map fun entry => if entry.1 = name then (entry.1, change entry.2) else entry

def declare (type : SourceType) (index : FileIndex) : FileIndex :=
  match index.get? type.binaryName with
  | some _ => index
  | none => index ++ [(type.binaryName, type)]

end FileIndex

def SourceType.ofSpan (package : Option String) (types : List String) (name : String)
    (span : Span) : SourceType :=
  { simpleName := name
    binaryName := nestedName package types
    line := span.start.line
    column := span.start.column
    start := span.start.byte
    stop := span.stop }

mutual

/-- Enters the types at and below a node that stands inside `types`, the outermost first. Methods,
creations and enum constants are not entered: the types inside them get names from the compiler. -/
def indexNode (package : Option String) (types : List String) : Node → FileIndex → FileIndex
  | .mk kind span children, index =>
    let enclosing := nestedName package types
    match kind with
    | .type name =>
      let index := if types.isEmpty then index
        else index.update enclosing (·.addForeign [⟨span.start.byte, span.stop⟩])
      indexNodes package (types ++ [name]) children
        (index.declare (.ofSpan package (types ++ [name]) name span))
    | .method sketch =>
      if types.isEmpty then index
      else index.update enclosing fun type =>
        (type.addMethod (.ofSketch sketch span)).addForeign (innerSegmentsOf children)
    | .creation | .constant =>
      if types.isEmpty then index
        else index.update enclosing (·.addForeign (innerSegmentsOf children))
    | .classBody | .other => indexNodes package types children index

def indexNodes (package : Option String) (types : List String) : List Node → FileIndex → FileIndex
  | [], index => index
  | node :: rest, index => indexNodes package types rest (indexNode package types node index)

end

def Outline.index (outline : Outline) : FileIndex := indexNode outline.package [] outline.root []

def SourceType.findBody? (type : SourceType) (method : String) : Option String :=
  ((type.methods.get? method).getD []).findSome? SourceMethod.body

/-- A byte offset inside a character: the first byte of that character, its place, and how many of
its bytes lie before the offset. -/
structure CutError where
  byte : UInt8
  position : Nat
  count : Nat
  deriving DecidableEq, Repr

def CutError.message (e : CutError) : String :=
  if e.count = 1 then
    s!"'utf-8' codec can't decode byte 0x{Text.lowerHex 2 e.byte.toNat} in position {e.position}: unexpected end of data"
  else
    let last := e.position + e.count - 1
    s!"'utf-8' codec can't decode bytes in position {e.position}-{last}: unexpected end of data"

def charsWithin (before bytes : Nat) : List Char → Except CutError Nat
  | [] => .ok 0
  | c :: rest =>
    if bytes = 0 then .ok 0
    else if utf8Size c ≤ bytes then
      (charsWithin (before + utf8Size c) (bytes - utf8Size c) rest).map (· + 1)
    else .error ⟨(Text.encodeCode c.toNat).headD 0, before, bytes⟩

def charSegment (source : List Char) (segment : Segment) : Except CutError Segment := do
  return ⟨← charsWithin 0 segment.start source, ← charsWithin 0 segment.stop source⟩

def Segment.keep (part : Segment) (text : List Char) : List Char :=
  List.replicate part.start ' ' ++ part.cut text ++ List.replicate (text.length - part.stop) ' '

def Segment.blank (part : Segment) (text : List Char) : List Char :=
  text.take part.start ++ List.replicate (part.stop - part.start) ' ' ++ text.drop part.stop

/-- The text of a type alone, at its place in `source`: the type is cut out, then one foreign part
after another is blanked. -/
def SourceType.ownText (type : SourceType) (source : List Char) : Except CutError (List Char) := do
  let whole ← charSegment source ⟨type.start, type.stop⟩
  type.foreign.foldlM (fun text segment => return (← charSegment source segment).blank text)
    (whole.keep source)

def Segment.fits (source : List Char) (segment : Segment) : Bool :=
  match charSegment source segment with
  | .ok chars => chars.start ≤ chars.stop
  | .error _ => false

mutual

def Node.segments : Node → List Segment
  | .mk _ span children => ⟨span.start.byte, span.stop⟩ :: nodeSegments children

def nodeSegments : List Node → List Segment
  | [] => []
  | node :: rest => node.segments ++ nodeSegments rest

end

def Outline.Fits (outline : Outline) (source : List Char) : Prop :=
  outline.root.segments.all (Segment.fits source) = true

instance (outline : Outline) (source : List Char) : Decidable (outline.Fits source) :=
  inferInstanceAs (Decidable (_ = true))

theorem Outline.bare_fits (source : List Char) : bare.Fits source := by
  cases source <;> rfl

/-- A parser gives the outline of a text, with each node at a place in it. -/
structure Parser where
  outline : List Char → Outline
  fits : ∀ source, (outline source).Fits source

namespace Parser

def bare : Parser := ⟨fun _ => .bare, Outline.bare_fits⟩

/-- A parser from a function that gives outlines; those that do not fit the text are dropped. -/
def ofOutline (outline : List Char → Outline) : Parser where
  outline source := if (outline source).Fits source then outline source else .bare
  fits source := by
    split
    · assumption
    · exact Outline.bare_fits source

end Parser

structure SourceIndex where
  parser : Parser
  files : Table String FileIndex := []

namespace SourceIndex

/-- The index of a text. The first text under a path stands for that path from then on. -/
def lookup (state : SourceIndex) (source : List Char) (path : Option String) :
    FileIndex × SourceIndex :=
  match path with
  | none => ((state.parser.outline source).index, state)
  | some path =>
    match state.files.get? path with
    | some index => (index, state)
    | none =>
      let index := (state.parser.outline source).index
      (index, { state with files := state.files.put path index })

end SourceIndex

end CallAtlas.Java
