import CallAtlas.Java.SourceIndex
import CallAtlas.Java.TokenTree

/-!
A parser of source text that follows the grammar of the language: the outline is read off the
grouped tokens.
-/

namespace CallAtlas.Java

open Text

def byteSlice (source : List Char) (start stop : Nat) : List Char :=
  let rec go : Nat → List Char → List Char
    | _, [] => []
    | byte, c :: rest =>
      if byte < start then go (byte + utf8Size c) rest
      else if byte < stop then c :: go (byte + utf8Size c) rest
      else []
  go 0 source

def textOf (source : List Char) (trees : List TokenTree) : List Char :=
  match trees.head?, trees.getLast? with
  | some first, some last => byteSlice source first.start.byte last.stop
  | _, _ => []

def spanOf (first : TokenTree) (stop : Nat) : Span := ⟨first.start, stop⟩

def modifierKeywords : List String :=
  ["public", "protected", "private", "abstract", "static", "final", "strictfp", "default",
    "synchronized", "native", "transient", "volatile", "sealed"]

def isModifier (tree : TokenTree) : Bool :=
  (tree.word?.map fun text => modifierKeywords.any fun word => word.toList == text).getD false

def dottedLength : List TokenTree → Nat
  | dot :: name :: rest => if dot.isMark '.' && name.word?.isSome then 2 + dottedLength rest else 0
  | _ => 0

def annotationLength? : List TokenTree → Option Nat
  | at_ :: name :: rest =>
    if at_.isMark '@' && name.word?.isSome && !name.isWord "interface" then
      let dotted := dottedLength rest
      let arguments := ((rest.drop dotted).head?.map (·.isGroup '(')).getD false
      some (2 + dotted + if arguments then 1 else 0)
    else none
  | _ => none

def modifiersLength : (fuel : Nat) → List TokenTree → Nat
  | 0, _ => 0
  | fuel + 1, trees =>
    match annotationLength? trees with
    | some n => n + modifiersLength fuel (trees.drop n)
    | none => match trees with
      | first :: dash :: last :: rest =>
        if first.isWord "non" && dash.isMark '-' && last.isWord "sealed" then 3 +
          modifiersLength fuel rest
        else if isModifier first then 1 + modifiersLength fuel (dash :: last :: rest)
        else 0
      | first :: rest => if isModifier first then 1 + modifiersLength fuel rest else 0
      | [] => 0

def anglesLength : (depth : Nat) → List TokenTree → Nat
  | _, [] => 0
  | 0, tree :: rest => if tree.isMark '<' then 1 + anglesLength 1 rest else 0
  | depth + 1, tree :: rest =>
    if tree.isMark '<' then 1 + anglesLength (depth + 2) rest
    else if tree.isMark '>' then (if depth = 0 then 1 else 1 + anglesLength depth rest)
    else 1 + anglesLength (depth + 1) rest

def splitAtCommas : (depth : Nat) → List TokenTree → List (List TokenTree)
  | _, [] => [[]]
  | depth, tree :: rest =>
    if depth = 0 && tree.isMark ',' then [] :: splitAtCommas 0 rest
    else
      let depth :=
        if tree.isMark '<' then depth + 1 else if tree.isMark '>' then depth - 1 else depth
      match splitAtCommas depth rest with
      | [] => [[tree]]
      | part :: parts => (tree :: part) :: parts

/-- The texts of parameters. A parameter named `this` stands for the receiver and is left out. -/
def parameterTexts (source : List Char) (inner : List TokenTree) : List String :=
  let parts := (splitAtCommas 0 inner).filter fun part =>
    !part.isEmpty && !((part.getLast?.map (·.isWord "this")).getD false)
  parts.map fun part => String.ofList (textOf source part)

def blockText (source : List Char) (block : TokenTree) : String :=
  String.ofList (strip (byteSlice source (block.start.byte + 1) (block.stop - 1)))

structure MethodHead where
  before : Nat
  name : List Char
  parameters : Option (List TokenTree)

/-- Looks for a name with parameters, or a block right after a name, before anything that ends a
field's type and name. `name` is the word just before. -/
def methodHead? : (fuel before : Nat) → (name : Option (List Char)) → List TokenTree →
    Option MethodHead
  | 0, _, _, _ => none
  | fuel + 1, before, name, trees =>
    match annotationLength? trees, trees with
    | some n, _ => methodHead? fuel (before + n) none (trees.drop n)
    | none, [] => none
    | none, tree :: rest =>
      match tree, name with
      | .group '(' _ _ inner, some name => some ⟨before - 1, name, some inner⟩
      | .group '{' _ _ _, some name => if before = 1 then some ⟨0, name, none⟩ else none
      | .group '[' _ _ _, _ => methodHead? fuel (before + 1) none rest
      | .group _ _ _ _, _ => none
      | .leaf ⟨.word, text, _, _⟩, _ => methodHead? fuel (before + 1) (some text) rest
      | .leaf ⟨.mark c, _, _, _⟩, _ =>
        if c = '=' || c = ';' then none else methodHead? fuel (before + 1) none rest
      | .leaf _, _ => none

def declarationLength : List TokenTree → Nat
  | [] => 0
  | tree :: rest => if tree.isGroup '{' || tree.isMark ';' then 1 else 1 + declarationLength rest

def statementKeywords : List String :=
  ["return", "throw", "new", "else", "do", "case", "yield", "assert", "import", "package", "if",
    "while", "for", "switch", "try", "catch", "finally", "break", "continue", "this", "super"]

def methodSketch? (source : List Char) (trees : List TokenTree) : Option (MethodSketch × Nat) := do
  let modifiers := modifiersLength trees.length trees
  let rest := trees.drop modifiers
  let generics := anglesLength 0 rest
  let rest := rest.drop generics
  let head ← methodHead? (rest.length + 1) 0 none rest
  let before := modifiers + generics + head.before
  let length := before + 1 + declarationLength (trees.drop (before + 1))
  let block := ((trees.take length).getLast?.filter (·.isGroup '{'))
  return ({
    name := if head.before = 0 then "<init>" else String.ofList head.name
    parameters := (head.parameters.map (parameterTexts source)).getD []
    body := block.map (blockText source) }, length)

/-- A method outside a type: unlike a call it has a return type, and its name follows no dot. -/
def looseMethod? (source : List Char) (trees : List TokenTree) : Option (MethodSketch × Nat) := do
  let (sketch, length) ← methodSketch? source trees
  let head := (trees.take length).takeWhile fun tree => !tree.isGroup '(' && !tree.isGroup '{'
  let isStatement := head.any fun tree => statementKeywords.any fun word => tree.isWord word
  let afterDot := ((head.dropLast.getLast?).map (·.isMark '.')).getD false
  if sketch.name = "<init>" || isStatement || afterDot then none else return (sketch, length)

inductive BodyForm where
  | ordinary
  | enumeration
  | annotationType
  deriving DecidableEq, Repr

structure TypeHead where
  form : BodyForm
  name : List Char
  length : Nat

def typeName? : List TokenTree → Option (BodyForm × List Char)
  | keyword :: name :: rest =>
    match name.word? with
    | none => none
    | some text =>
      if keyword.isWord "class" || keyword.isWord "interface" then some (.ordinary, text)
      else if keyword.isWord "enum" then some (.enumeration, text)
      else if keyword.isWord "record" then
        match rest with
        | next :: _ => if next.isGroup '(' || next.isMark '<' then some (.ordinary, text) else none
        | [] => none
      else if keyword.isMark '@' && name.isWord "interface" then
        match rest with
        | next :: _ => next.word?.map fun text => (.annotationType, text)
        | [] => none
      else none
  | _ => none

def typeHead? (trees : List TokenTree) : Option TypeHead := do
  let modifiers := modifiersLength trees.length trees
  let (form, name) ← typeName? (trees.drop modifiers)
  let length := (trees.takeWhile fun tree => !tree.isGroup '{').length
  if length < trees.length then some ⟨form, name, length⟩ else none

def creationLength : (fuel : Nat) → List TokenTree → Nat
  | 0, _ => 0
  | fuel + 1, trees =>
    match annotationLength? trees, trees with
    | some n, _ => n + creationLength fuel (trees.drop n)
    | none, [] => 0
    | none, tree :: rest =>
      if tree.isGroup '(' || tree.isGroup '[' || tree.isGroup '{' then 0
        else 1 + creationLength fuel rest

inductive Link where
  | start
  | apart
  | afterWord
  | afterDot
  deriving DecidableEq, Repr

mutual

/-- The nodes in statements and expressions. `operand` holds those of the operand that may go on,
the last one first: a qualified creation takes them in. -/
def codeNodes (source : List Char) : (fuel : Nat) → Link → (operand : List Node) →
    List TokenTree → List Node
  | 0, _, operand, _ => operand.reverse
  | _ + 1, _, operand, [] => operand.reverse
  | fuel + 1, link, operand, tree :: rest =>
    if link = .afterDot then
      if tree.isWord "new" then creationNode source fuel operand tree rest
      else match tree with
        | .leaf _ =>
          codeNodes source fuel (if tree.word?.isSome then .afterWord else .apart) operand rest
        | .group _ _ _ inner =>
          codeNodes source fuel .apart
            ((codeNodes source fuel .apart [] inner).reverse ++ operand) rest
    else match if link = .start then typeHead? (tree :: rest) else none with
      | some head =>
        operand.reverse ++ typeNode source fuel head (tree :: rest) ::
          codeNodes source fuel .start [] ((tree :: rest).drop (head.length + 1))
      | none =>
        match tree with
        | .group bracket _ _ inner =>
          let nodes := codeNodes source fuel (if bracket = '{' then .start else .apart) [] inner
          if bracket = '[' || (bracket = '(' && link = .afterWord) then
            codeNodes source fuel .apart (nodes.reverse ++ operand) rest
          else if bracket = '(' then operand.reverse ++
            codeNodes source fuel .apart nodes.reverse rest
          else operand.reverse ++ nodes ++ codeNodes source fuel .start [] rest
        | .leaf token =>
          match token.lexeme with
          | .doubleColon =>
            operand.reverse ++ codeNodes source fuel .apart [] (rest.drop (anglesLength 0 rest + 1))
          | .mark '.' => codeNodes source fuel .afterDot operand rest
          | .mark ';' | .mark ':' => operand.reverse ++ codeNodes source fuel .start [] rest
          | .word =>
            if tree.isWord "new" then operand.reverse ++ creationNode source fuel [] tree rest
            else operand.reverse ++ codeNodes source fuel .afterWord [] rest
          | _ => operand.reverse ++ codeNodes source fuel .apart [] rest

/-- A creation whose `new` is `keyword`, and the nodes after it. A qualified one begins with its
operand. Without arguments it creates an array. -/
def creationNode (source : List Char) :
    (fuel : Nat) → (operand : List Node) → (keyword : TokenTree) → List TokenTree → List Node
  | 0, operand, _, _ => operand.reverse
  | fuel + 1, operand, keyword, trees =>
    let head := creationLength (trees.length + 1) trees
    let start := (operand.getLast?.map fun node => node.span.start).getD keyword.start
    match trees.drop head with
    | .group '(' _ stop inner :: rest =>
      let arguments := codeNodes source fuel .apart [] inner
      match rest with
      | .group '{' opening stop inner :: rest =>
        let body := Node.mk .classBody ⟨opening, stop⟩ (memberNodes source fuel .ordinary inner)
        let node := Node.mk .creation ⟨start, stop⟩ (operand.reverse ++ arguments ++ [body])
        codeNodes source fuel .apart [node] rest
      | _ =>
        let node := Node.mk .creation ⟨start, stop⟩ (operand.reverse ++ arguments)
        codeNodes source fuel .apart [node] rest
    | rest => operand.reverse ++ codeNodes source fuel .apart [] rest

def typeNode (source : List Char) : (fuel : Nat) → TypeHead → List TokenTree → Node
  | 0, head, _ => .mk (.type (String.ofList head.name)) ⟨.zero, 0⟩ []
  | fuel + 1, head, trees =>
    let outer := codeNodes source fuel .apart [] (trees.take head.length)
    let name := String.ofList head.name
    match trees.head?, trees[head.length]? with
    | some first, some (.group _ _ stop inner) =>
      .mk (.type name) (spanOf first stop) (outer ++ memberNodes source fuel head.form inner)
    | _, _ => .mk (.type name) ⟨.zero, 0⟩ outer

def memberNodes (source : List Char) : (fuel : Nat) → BodyForm → List TokenTree → List Node
  | 0, _, _ => []
  | _ + 1, _, [] => []
  | fuel + 1, form, tree :: rest =>
    if form = .enumeration then
      if tree.isMark ';' then memberNodes source fuel .ordinary rest
      else if tree.isMark ',' then memberNodes source fuel .enumeration rest
      else
        let length :=
          ((tree :: rest).takeWhile fun tree => !tree.isMark ',' && !tree.isMark ';').length
        let node := constantNode source fuel ((tree :: rest).take length)
        node :: memberNodes source fuel .enumeration ((tree :: rest).drop length)
    else if tree.isMark ';' then memberNodes source fuel form rest
    else match typeHead? (tree :: rest) with
      | some head =>
        typeNode source fuel head (tree :: rest) ::
          memberNodes source fuel form ((tree :: rest).drop (head.length + 1))
      | none =>
        match tree, rest with
        | .group '{' start stop inner, _ =>
          .mk .other ⟨start, stop⟩ (codeNodes source fuel .start [] inner) ::
            memberNodes source fuel form rest
        | _, .group '{' _ stop inner :: more =>
          if tree.isWord "static" then
            .mk .other (spanOf tree stop) (codeNodes source fuel .start [] inner) ::
              memberNodes source fuel form more
          else memberNode source fuel form tree rest
        | _, _ => memberNode source fuel form tree rest

def memberNode (source : List Char) : (fuel : Nat) → BodyForm → TokenTree →
    List TokenTree → List Node
  | 0, _, _, _ => []
  | fuel + 1, form, tree, rest =>
    let trees := tree :: rest
    match if form = .annotationType then none else methodSketch? source trees with
    | some (sketch, length) =>
      let stop := ((trees.take length).getLast?.map TokenTree.stop).getD tree.stop
      .mk (.method sketch) (spanOf tree stop)
        (codeNodes source fuel .apart [] (trees.take length)) ::
        memberNodes source fuel form (trees.drop length)
    | none =>
      let length := (trees.takeWhile fun tree => !tree.isMark ';').length + 1
      let stop := ((trees.take length).getLast?.map TokenTree.stop).getD tree.stop
      .mk .other (spanOf tree stop) (codeNodes source fuel .apart [] (trees.take length)) ::
        memberNodes source fuel form (trees.drop length)

def constantNode (source : List Char) : (fuel : Nat) → List TokenTree → Node
  | 0, _ => .mk .constant ⟨.zero, 0⟩ []
  | fuel + 1, trees =>
    let outer := codeNodes source fuel .apart [] (trees.filter fun tree => !tree.isGroup '{')
    let bodies := trees.filterMap fun tree => match tree with
      | .group '{' start stop inner => some (start, stop, inner)
      | _ => none
    let nodes := bodies.map fun (start, stop, inner) =>
      Node.mk .classBody ⟨start, stop⟩ (memberNodes source fuel .ordinary inner)
    match trees.head?, trees.getLast? with
    | some first, some last => .mk .constant (spanOf first last.stop) (outer ++ nodes)
    | _, _ => .mk .constant ⟨.zero, 0⟩ (outer ++ nodes)

end

def topNodes (source : List Char) : (fuel : Nat) → List TokenTree → List Node
  | 0, _ => []
  | _ + 1, [] => []
  | fuel + 1, tree :: rest =>
    let trees := tree :: rest
    match typeHead? trees with
    | some head =>
      typeNode source fuel head trees :: topNodes source fuel (trees.drop (head.length + 1))
    | none =>
      match looseMethod? source trees with
      | some (sketch, length) =>
        let stop := ((trees.take length).getLast?.map TokenTree.stop).getD tree.stop
        .mk (.method sketch) (spanOf tree stop)
          (codeNodes source fuel .apart [] (trees.take length)) ::
          topNodes source fuel (trees.drop length)
      | none =>
        let length := declarationLength trees
        codeNodes source fuel .apart [] (trees.take length) ++
          topNodes source fuel (trees.drop length)

/-- Each step of the outline takes a token, goes inside a bracket, or hands over to another step at
most twice. -/
def outlineFuel (source : List Char) : Nat := 4 * source.length + 4

def packageOf (source : List Char) (trees : List TokenTree) : Option String :=
  match trees.dropWhile fun tree => !tree.isWord "package" with
  | [] => none
  | _ :: rest =>
    match rest.takeWhile fun tree => !tree.isMark ';' with
    | [] => none
    | name => some (String.ofList (textOf source name))

def outline (source : List Char) : Outline :=
  let trees := tokenTrees source
  { package := packageOf source trees
    root := .mk .other ⟨.zero, (Point.zero.afterAll source).byte⟩
      (topNodes source (outlineFuel source) trees) }

def outlineParser : Parser := .ofOutline outline

end CallAtlas.Java
