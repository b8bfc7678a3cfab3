import CallAtlas.Proofs.Attribution

/-!
The text of a type as a list of pieces. What other types and anonymous classes enclose is foreign,
and shown as spaces; each brace has the declaration that it belongs to.
-/

namespace CallAtlas.Java

open Text

/-- What a bracket outside all others belongs to: the type itself or one of its methods. -/
inductive Owner where
  | none
  | type
  | method (name : String)
  deriving DecidableEq, Repr

inductive Piece where
  | leaf (sort : LeafSort) (text : List Char)
  | foreign (text : List Char)
  | opening (bracket : Bracket) (owner : Owner)
  | closing (bracket : Bracket)
  deriving DecidableEq, Repr

def Piece.source : Piece → List Char
  | leaf _ text | foreign text => text
  | opening bracket _ => [bracket.opening]
  | closing bracket => [bracket.closing]

def Piece.shown : Piece → List Char
  | foreign text => List.replicate text.length ' '
  | piece => piece.source

def sourceOf (pieces : List Piece) : List Char := pieces.flatMap Piece.source

def shownOf (pieces : List Piece) : List Char := pieces.flatMap Piece.shown

mutual

/-- The pieces of a tree inside a type. Once a method, a creation or an enum constant is entered,
class bodies are foreign as types are. -/
def SyntaxTree.pieces (hidden : Bool) (owner : Owner) : SyntaxTree → List Piece
  | .leaf sort text => [.leaf sort text]
  | .group bracket inner =>
    .opening bracket owner :: (piecesOf hidden .none inner ++ [.closing bracket])
  | .node (.type _) children => [.foreign (spelled children)]
  | .node .classBody children =>
    if hidden then [.foreign (spelled children)] else piecesOf hidden owner children
  | .node (.method name _) children =>
    piecesOf true (if hidden then .none else .method name) children
  | .node .creation children | .node .constant children => piecesOf true .none children
  | .node .other children => piecesOf hidden owner children

def piecesOf (hidden : Bool) (owner : Owner) : List SyntaxTree → List Piece
  | [] => []
  | tree :: rest => tree.pieces hidden owner ++ piecesOf hidden owner rest

end

@[simp] theorem sourceOf_append (first second : List Piece) :
    sourceOf (first ++ second) = sourceOf first ++ sourceOf second := List.flatMap_append

@[simp] theorem shownOf_append (first second : List Piece) :
    shownOf (first ++ second) = shownOf first ++ shownOf second := List.flatMap_append

@[simp] theorem sourceOf_cons (piece : Piece) (rest : List Piece) :
    sourceOf (piece :: rest) = piece.source ++ sourceOf rest := List.flatMap_cons

@[simp] theorem shownOf_cons (piece : Piece) (rest : List Piece) :
    shownOf (piece :: rest) = piece.shown ++ shownOf rest := List.flatMap_cons

@[simp] theorem sourceOf_nil : sourceOf [] = [] := rfl

@[simp] theorem shownOf_nil : shownOf [] = [] := rfl

theorem Piece.length_shown (piece : Piece) : piece.shown.length = piece.source.length := by
  cases piece <;> simp [shown, source]

theorem length_shownOf (pieces : List Piece) :
    (shownOf pieces).length = (sourceOf pieces).length := by
  induction pieces with
  | nil => rfl
  | cons piece rest ih => simp [ih, piece.length_shown]

mutual

theorem SyntaxTree.source_pieces (hidden : Bool) (owner : Owner) :
    ∀ tree : SyntaxTree, sourceOf (tree.pieces hidden owner) = tree.text
  | .leaf _ _ => by simp [SyntaxTree.pieces, SyntaxTree.text, Piece.source]
  | .group _ inner => by
    simp [SyntaxTree.pieces, SyntaxTree.text, Piece.source, source_piecesOf hidden .none inner]
  | .node (.type _) children => by simp [SyntaxTree.pieces, SyntaxTree.text, Piece.source]
  | .node .classBody children => by
    rw [SyntaxTree.pieces, SyntaxTree.text]
    split
    · simp [Piece.source]
    · exact source_piecesOf hidden owner children
  | .node (.method _ _) children => source_piecesOf true _ children
  | .node .creation children | .node .constant children => source_piecesOf true .none children
  | .node .other children => source_piecesOf hidden owner children

theorem source_piecesOf (hidden : Bool) (owner : Owner) :
    ∀ trees : List SyntaxTree, sourceOf (piecesOf hidden owner trees) = spelled trees
  | [] => rfl
  | tree :: rest => by
    rw [piecesOf, sourceOf_append, tree.source_pieces, source_piecesOf hidden owner rest, spelled]

end

def masked (hides : Nat → Bool) (byte : Nat) : List Char → List Char
  | [] => []
  | c :: rest => (if hides byte then ' ' else c) :: masked hides (byte + utf8Size c) rest

section Masks

variable {hides other : Nat → Bool} {byte : Nat}

theorem masked_append (hides : Nat → Bool) (byte : Nat) (s t : List Char) :
    masked hides byte (s ++ t) =
    masked hides byte s ++ masked hides (byte + (encodeUtf8 s).length) t := by
  induction s generalizing byte with
  | nil => rfl
  | cons c rest ih =>
    rw [List.cons_append, masked, ih, length_encodeUtf8_cons, ← Nat.add_assoc, masked,
      List.cons_append]

theorem masked_congr {s : List Char}
    (same : ∀ b, byte ≤ b → b < byte + (encodeUtf8 s).length → hides b = other b) :
    masked hides byte s = masked other byte s := by
  induction s generalizing byte with
  | nil => rfl
  | cons c rest ih =>
    have size := utf8Size_pos c
    rw [length_encodeUtf8_cons] at same
    rw [masked, masked, same byte (Nat.le_refl _) (by omega), ih]
    intro b after before
    exact same b (by omega) (by omega)

theorem masked_none (byte : Nat) (s : List Char) : masked (fun _ => false) byte s = s := by
  induction s generalizing byte with
  | nil => rfl
  | cons c rest ih => rw [masked, ih, if_neg Bool.false_ne_true]

theorem masked_all (byte : Nat) (s : List Char) :
    masked (fun _ => true) byte s = List.replicate s.length ' ' := by
  induction s generalizing byte with
  | nil => rfl
  | cons c rest ih => rw [masked, ih, if_pos rfl, List.length_cons, List.replicate_succ]

theorem getElem?_masked (hides : Nat → Bool) (byte : Nat) (s : List Char) (i : Nat) :
    (masked hides byte s)[i]? =
      s[i]?.map fun c => if hides (byte + (encodeUtf8 (s.take i)).length) then ' ' else c := by
  induction s generalizing byte i with
  | nil => rfl
  | cons c rest ih =>
    cases i with
    | zero => rfl
    | succ i =>
      rw [masked, List.getElem?_cons_succ, ih, List.getElem?_cons_succ, List.take_succ_cons,
        length_encodeUtf8_cons, Nat.add_assoc]

end Masks

def NodeKind.isForeign (hidden : Bool) : NodeKind → Bool
  | type _ => true
  | classBody => hidden
  | _ => false

mutual

def Node.covers (hidden : Bool) (byte : Nat) : Node → Bool
  | .mk kind span children =>
    (kind.isForeign hidden && Segment.holds ⟨span.start.byte, span.stop⟩ byte) ||
      anyCovers (hidden || kind.hides) byte children

def anyCovers (hidden : Bool) (byte : Nat) : List Node → Bool
  | [] => false
  | node :: rest => node.covers hidden byte || anyCovers hidden byte rest

end

mutual

theorem Node.Nested.covers {hidden : Bool} {byte : Nat} : ∀ {node : Node}, node.Nested →
    node.covers hidden byte = true → node.span.start.byte ≤ byte ∧ byte < node.span.stop
  | .mk _ _ _, nested, covered => by
    rw [Node.covers, Bool.or_eq_true, Bool.and_eq_true] at covered
    rcases covered with ⟨_, here⟩ | below
    · exact Segment.holds_iff.mp here
    · exact AllNested.anyCovers nested below

theorem AllNested.anyCovers {hidden : Bool} {byte : Nat} : ∀ {nodes : List Node} {low high : Nat},
    AllNested low high nodes → anyCovers hidden byte nodes = true → low ≤ byte ∧ byte < high
  | [], _, _, _, covered => nomatch covered
  | _ :: _, _, _, nested, covered => by
    obtain ⟨first, inner, rest⟩ := allNested_cons.mp nested
    rw [Java.anyCovers, Bool.or_eq_true] at covered
    rcases covered with here | later
    · have inside := inner.covers here
      have range := rest.range
      omega
    · have inside := rest.anyCovers later
      have range := inner.range
      omega

end

mutual

theorem Node.covers_iff {byte : Nat} :
    ∀ {hidden : Bool} {node : Node}, node.covers hidden byte = true ↔
    ∃ address found, node.at? address = some found ∧ found.segment.holds byte = true ∧
      ((∃ name, found.kind = .type name) ∨
        found.kind = .classBody ∧ (hidden = true ∨ ∃ kind ∈ node.above address, kind.hides = true))
  | hidden, .mk kind span children => by
    rw [Node.covers, Bool.or_eq_true, Bool.and_eq_true, anyCovers_iff]
    constructor
    · rintro (⟨foreign, here⟩ | ⟨i, child, isChild, address, found, atFound, holds, mark⟩)
      · refine ⟨[], .mk kind span children, rfl, here, ?_⟩
        cases kind with
        | type name => exact .inl ⟨name, rfl⟩
        | classBody => exact .inr ⟨rfl, .inl foreign⟩
        | method | creation | constant | other => cases foreign
      · refine ⟨i :: address, found, Node.at?_cons_eq_some.mpr ⟨child, isChild, atFound⟩, holds, ?_⟩
        rw [Node.above_cons isChild, List.exists_mem_cons_iff, ← or_assoc, ← Bool.or_eq_true]
        exact mark
    · rintro ⟨_ | ⟨i, address⟩, found, atFound, holds, mark⟩
      · cases atFound
        refine .inl ⟨?_, holds⟩
        rcases mark with ⟨name, isType⟩ | ⟨isBody, isHidden | ⟨_, member, _⟩⟩
        · cases isType
          rfl
        · cases isBody
          exact isHidden
        · cases member
      · obtain ⟨child, isChild, atFound⟩ := Node.at?_cons_eq_some.mp atFound
        rw [Node.above_cons isChild, List.exists_mem_cons_iff, ← or_assoc,
          ← Bool.or_eq_true] at mark
        exact .inr ⟨i, child, isChild, address, found, atFound, holds, mark⟩

theorem anyCovers_iff {byte : Nat} :
    ∀ {hidden : Bool} {nodes : List Node}, anyCovers hidden byte nodes = true ↔
      ∃ (i : Nat) (child : Node), nodes[i]? = some child ∧
      ∃ address found, child.at? address = some found ∧
      found.segment.holds byte = true ∧ ((∃ name, found.kind = .type name) ∨
        found.kind = .classBody ∧ (hidden = true ∨ ∃ kind ∈ child.above address, kind.hides = true))
  | _, [] => by simp [anyCovers]
  | hidden, node :: rest => by
    rw [anyCovers, Bool.or_eq_true, Node.covers_iff, anyCovers_iff]
    constructor
    · rintro (here | ⟨i, child, isChild, below⟩)
      · exact ⟨0, node, rfl, here⟩
      · exact ⟨i + 1, child, isChild, below⟩
    · rintro ⟨_ | i, child, isChild, below⟩
      · cases isChild
        exact .inl below
      · exact .inr ⟨i, child, isChild, below⟩

end

theorem masked_foreign {p : Point} {tree : SyntaxTree} {hidden : Bool}
    (foreign : (tree.outlined p).kind.isForeign hidden = true) :
    masked ((tree.outlined p).covers hidden) p.byte tree.text =
    List.replicate tree.text.length ' ' := by
  rw [← masked_all p.byte tree.text]
  apply masked_congr
  intro b after before
  have inside : (tree.outlined p).segment.holds b = true := by
    rw [tree.segment_outlined]
    exact Segment.holds_iff.mpr ⟨after, before⟩
  cases node : tree.outlined p with
  | mk kind span children =>
    rw [node] at foreign inside
    rw [Node.covers]
    exact Bool.or_eq_true_iff.mpr (.inl (Bool.and_eq_true_iff.mpr ⟨foreign, inside⟩))

theorem Node.covers_of_own {hidden : Bool} {kind : NodeKind} (span : Span) (children : List Node)
    (own : kind.isForeign hidden = false) :
    (Node.mk kind span children).covers hidden =
    fun b => anyCovers (hidden || kind.hides) b children := by
  funext b
  rw [Node.covers, own, Bool.false_and, Bool.false_or]

mutual

theorem SyntaxTree.shown_pieces (p : Point) (hidden : Bool) (owner : Owner) : ∀ tree : SyntaxTree,
    shownOf (tree.pieces hidden owner) = masked ((tree.outlined p).covers hidden) p.byte tree.text
  | .leaf sort text => by
    have none : (SyntaxTree.outlined p (.leaf sort text)).covers hidden = fun _ => false := rfl
    rw [none, masked_none]
    exact List.flatMap_singleton _ _
  | .group bracket inner => by
    have inside {b : Nat}
        (covered : anyCovers hidden b (outlinedAll (p.after bracket.opening) inner) = true) :=
      (outlinedAll_nested (p.after bracket.opening) inner).anyCovers covered
    rw [Point.byte_after, utf8Size_opening] at inside
    have same : (SyntaxTree.outlined p (.group bracket inner)).covers hidden =
        fun b => anyCovers hidden b (outlinedAll (p.after bracket.opening) inner) := by
      rw [SyntaxTree.outlined, Node.covers_of_own _ _ rfl, NodeKind.hides, Bool.or_false]
    have first : anyCovers hidden p.byte (outlinedAll (p.after bracket.opening) inner) = false := by
      rw [← Bool.not_eq_true]
      intro covered
      have := inside covered
      omega
    have last : anyCovers hidden (p.byte + 1 + (encodeUtf8 (spelled inner)).length)
        (outlinedAll (p.after bracket.opening) inner) = false := by
      rw [← Bool.not_eq_true]
      intro covered
      have := inside covered
      omega
    have middle := shown_piecesOf (p.after bracket.opening) hidden .none inner
    rw [Point.byte_after, utf8Size_opening] at middle
    rw [same, SyntaxTree.text, masked, first, masked_append, utf8Size_opening,
      ← middle, masked, last]
    simp [SyntaxTree.pieces, Piece.shown, Piece.source, masked]
  | .node (.type name) children => by
    rw [masked_foreign rfl]
    exact List.flatMap_singleton _ _
  | .node .classBody children => by
    cases hidden with
    | true =>
      rw [masked_foreign rfl]
      exact List.flatMap_singleton _ _
    | false => exact shown_piecesOf p false owner children
  | .node (.method name _) children => by
    rw [SyntaxTree.outlined, Node.covers_of_own _ _ rfl, SyntaxKind.outlined,
      NodeKind.hides, Bool.or_true]
    exact shown_piecesOf p true _ children
  | .node .creation children | .node .constant children => by
    rw [SyntaxTree.outlined, Node.covers_of_own _ _ rfl, SyntaxKind.outlined,
      NodeKind.hides, Bool.or_true]
    exact shown_piecesOf p true .none children
  | .node .other children => by
    rw [SyntaxTree.outlined, Node.covers_of_own _ _ rfl, SyntaxKind.outlined,
      NodeKind.hides, Bool.or_false]
    exact shown_piecesOf p hidden owner children

theorem shown_piecesOf (p : Point) (hidden : Bool) (owner : Owner) : ∀ trees : List SyntaxTree,
    shownOf (piecesOf hidden owner trees) =
      masked (fun b => anyCovers hidden b (outlinedAll p trees)) p.byte (spelled trees)
  | [] => rfl
  | tree :: rest => by
    have inside {b : Nat}
        (covered : anyCovers hidden b (outlinedAll (p.afterAll tree.text) rest) = true) :=
      (outlinedAll_nested (p.afterAll tree.text) rest).anyCovers covered
    have within {b : Nat} (covered : (tree.outlined p).covers hidden b = true) :=
      (tree.outlined_nested p).covers covered
    rw [tree.span_outlined] at within
    have later := shown_piecesOf (p.afterAll tree.text) hidden owner rest
    rw [Point.byte_afterAll] at inside later
    rw [piecesOf, shownOf_append, spelled, masked_append, tree.shown_pieces p hidden owner, later]
    congr 1
    · apply masked_congr
      intro b after before
      have outside : anyCovers hidden b (outlinedAll (p.afterAll tree.text) rest) = false := by
        rw [← Bool.not_eq_true]
        intro covered
        have := inside covered
        omega
      rw [outlinedAll, anyCovers, outside, Bool.or_false]
    · apply masked_congr
      intro b after before
      have outside : (tree.outlined p).covers hidden b = false := by
        rw [← Bool.not_eq_true]
        intro covered
        have := within covered
        simp only at this
        omega
      rw [outlinedAll, anyCovers, outside, Bool.false_or]

end

theorem innermost_iff_uncovered {root node : Node} {address : Address} {simple : String}
    (nested : root.Nested) (here : root.at? address = some node) (isOpen : root.Open address)
    (isType : node.kind = .type simple) {byte : Nat}
    (inside : node.segment.holds byte = true) :
    Innermost root byte address ↔ anyCovers false byte node.children = false := by
  constructor
  · rintro ⟨_, _, innermost⟩
    rw [← Bool.not_eq_true, anyCovers_iff]
    rintro ⟨i, child, isChild, below, found, atFound, holds, mark⟩
    have atFound' : root.at? (address ++ i :: below) = some found :=
      (Node.at?_append here _).trans (Node.at?_cons_eq_some.mpr ⟨child, isChild, atFound⟩)
    have delimits : Delimits root (address ++ i :: below) := by
      refine ⟨found, atFound', ?_⟩
      rw [Node.above_append here, Node.above_cons isChild]
      rcases mark with isType | ⟨isBody, impossible | ⟨kind, member, hides⟩⟩
      · exact .inl isType
      · cases impossible
      · exact .inr ⟨isBody, kind, List.mem_append_right _ (List.mem_cons_of_mem _ member), hides⟩
    have shorter := (innermost _ delimits ⟨found, atFound', holds⟩).length_le
    rw [List.length_append, List.length_cons] at shorter
    omega
  · intro uncovered
    refine ⟨⟨node, here, .inl ⟨simple, isType⟩⟩, ⟨node, here, inside⟩, ?_⟩
    intro other delimits ⟨found, atOther, holds⟩
    rcases nested.comparable here atOther inside holds with below | up
    · obtain ⟨rest, rfl⟩ := below
      cases rest with
      | nil => exact (List.append_nil address).symm ▸ List.prefix_refl address
      | cons i rest =>
        rw [← Bool.not_eq_true, anyCovers_iff] at uncovered
        refine (uncovered ?_).elim
        rw [Node.at?_append here] at atOther
        obtain ⟨child, isChild, atFound⟩ := Node.at?_cons_eq_some.mp atOther
        obtain ⟨found', here', mark⟩ :=
          (delimits.below here isOpen).child isChild (by rw [isType]; rfl)
        cases atFound.symm.trans here'
        refine ⟨i, child, isChild, rest, found, atFound, holds, ?_⟩
        exact mark.imp id fun ⟨isBody, hidden⟩ => ⟨isBody, .inr hidden⟩
    · exact up

/-- The first declaration of a type in a tree, with the text before and after it. -/
structure FirstDeclaration (package : Option String) (tree : SyntaxTree) (key : String) where
  before : List Char
  simple : String
  children : List SyntaxTree
  after : List Char
  address : Address
  member : .node (.type simple) children ∈ tree.subtrees
  spells : tree.text = before ++ (spelled children ++ after)
  here : (tree.outlined .zero).at? address =
    some ((SyntaxTree.node (.type simple) children).outlined (Point.zero.afterAll before))
  declared : DeclaredAt package (tree.outlined .zero) key address
  first : ∀ other, DeclaredAt package (tree.outlined .zero) key other → other = address ∨
    Address.Before address other

namespace FirstDeclaration

variable {package : Option String} {tree : SyntaxTree} {key : String} {type : SourceType}

def pieces (declaration : FirstDeclaration package tree key) : List Piece :=
  .foreign declaration.before ::
    (piecesOf false .type declaration.children ++ [.foreign declaration.after])

def segment (declaration : FirstDeclaration package tree key) : Segment :=
  ⟨(encodeUtf8 declaration.before).length,
    (encodeUtf8 declaration.before).length + (encodeUtf8 (spelled declaration.children)).length⟩

theorem source_eq (declaration : FirstDeclaration package tree key) :
    tree.text = sourceOf declaration.pieces := by
  simp [pieces, declaration.spells, Piece.source, source_piecesOf]

end FirstDeclaration

theorem SyntaxTree.eq_type_of_outlined {p : Point} {tree : SyntaxTree} {simple : String}
    (isType : (tree.outlined p).kind = .type simple) :
    ∃ children, tree = .node (.type simple) children := by
  cases tree with
  | leaf | group => cases isType
  | node kind children =>
    cases kind with
    | type name =>
      cases isType
      exact ⟨children, rfl⟩
    | method | creation | constant | classBody | other => cases isType

theorem SourceType.ownText_eq_masked {type : SourceType} {source : List Char}
    (places : ∀ segment ∈ ⟨type.start, type.stop⟩ :: type.foreign, segment.OnCharacters source) :
    type.ownText source = .ok (masked
      (fun b => !(Segment.holds ⟨type.start, type.stop⟩ b && !type.foreign.any (·.holds b)))
      0 source) := by
  rw [List.forall_mem_cons] at places
  obtain ⟨whole, parts, wholeCut, partsCut, wholeWithin, partsWithin, holds⟩ :=
    exists_parts places.1 places.2
  rw [ownText_of_parts wholeCut partsCut]
  apply congrArg
  apply List.ext_getElem?
  intro i
  rw [getElem?_foldl_keep wholeWithin partsWithin, getElem?_masked, Nat.zero_add, ← firstByte]
  cases char : source[i]? with
  | none => rfl
  | some c =>
    rw [Option.map_some, Option.map_some, holds i (List.getElem?_eq_some_iff.mp char).1]
    cases Segment.holds ⟨type.start, type.stop⟩ (firstByte source i) &&
      !type.foreign.any (·.holds (firstByte source i)) <;> rfl

theorem FirstDeclaration.ownText_eq {package : Option String} {tree : SyntaxTree} {key : String}
    {type : SourceType} (declaration : FirstDeclaration package tree key)
    (places : ∀ segment ∈ ⟨type.start, type.stop⟩ :: type.foreign, segment.OnCharacters tree.text)
    (place : ⟨type.start, type.stop⟩ = declaration.segment)
    (hides : ∀ b, declaration.segment.holds b = true → type.foreign.any (·.holds b) =
      anyCovers false b
        (outlinedAll (Point.zero.afterAll declaration.before) declaration.children)) :
    type.ownText tree.text = .ok (shownOf declaration.pieces) := by
  have outside {b : Nat} (apart : b < (encodeUtf8 declaration.before).length ∨
      (encodeUtf8 declaration.before).length +
        (encodeUtf8 (spelled declaration.children)).length ≤ b) :
      (!(declaration.segment.holds b && !type.foreign.any (·.holds b))) = true := by
    rw [segment, Segment.holds_eq_false_iff.mpr apart]
    rfl
  have inside {b : Nat} (after : (encodeUtf8 declaration.before).length ≤ b)
      (below : b < (encodeUtf8 declaration.before).length +
        (encodeUtf8 (spelled declaration.children)).length) :
      (!(declaration.segment.holds b && !type.foreign.any (·.holds b))) = anyCovers false b
        (outlinedAll (Point.zero.afterAll declaration.before) declaration.children) := by
    have held : declaration.segment.holds b = true := Segment.holds_iff.mpr ⟨after, below⟩
    rw [held, hides b held, Bool.true_and, Bool.not_not]
  have shown :=
    shown_piecesOf (Point.zero.afterAll declaration.before) false .type declaration.children
  have start : (Point.zero.afterAll declaration.before).byte =
      (encodeUtf8 declaration.before).length :=
    (Point.byte_afterAll .zero _).trans (Nat.zero_add _)
  rw [SourceType.ownText_eq_masked places, place, declaration.spells, masked_append, masked_append,
    Nat.zero_add, masked_congr fun b _ below => outside (.inl (by omega)), masked_all,
    masked_congr fun b after below => inside after below,
    masked_congr fun b after _ => outside (.inr after), masked_all, ← start, ← shown]
  simp [pieces, Piece.shown]

/-- The text of a type is what the pieces of its first declaration show. -/
theorem exists_firstDeclaration {package : Option String} {tree : SyntaxTree} {key : String}
    {type : SourceType} (present : (tree.outline package).index.get? key = some type) :
    ∃ declaration : FirstDeclaration package tree key,
      type.ownText tree.text = .ok (shownOf declaration.pieces) := by
  have nested := tree.outlined_nested .zero
  obtain ⟨address, node, here, declared, first, segment, keeps⟩ :=
    index_keepsInnermost nested present
  have places : ∀ segment ∈ ⟨type.start, type.stop⟩ :: type.foreign,
      segment.OnCharacters tree.text := by
    intro segment member
    obtain ⟨address, found, here, rfl⟩ := index_places present segment member
    exact SyntaxTree.onCharacters here
  obtain ⟨before, sub, after, member, spells, rfl⟩ := SyntaxTree.exists_of_at? here
  obtain ⟨_, simple, here', isType, isOpen, _⟩ := id declared
  cases here.symm.trans here'
  obtain ⟨children, rfl⟩ := SyntaxTree.eq_type_of_outlined isType
  let declaration : FirstDeclaration package tree key :=
    ⟨before, simple, children, after, address, member, spells, here, declared, first⟩
  have place : ⟨type.start, type.stop⟩ = declaration.segment := by
    rw [← segment, SyntaxTree.segment_outlined, Point.byte_afterAll]
    simp only [Point.zero, Nat.zero_add]
    rfl
  refine ⟨declaration, declaration.ownText_eq places place ?_⟩
  intro b held
  rw [← place, ← segment] at held
  have kept := (keeps b held).trans (innermost_iff_uncovered nested here isOpen isType held)
  rw [Bool.eq_iff_iff, ← not_iff_not, Bool.not_eq_true, Bool.not_eq_true, List.any_eq_false]
  simp only [Bool.not_eq_true]
  exact kept

end CallAtlas.Java
