import CallAtlas.Proofs.OwnText

/-! Syntax trees: the text that a tree spells, and the outline that it has of this text. -/

namespace CallAtlas.Java

open Text

inductive LeafSort where
  | blank
  | comment
  | literal
  | word
  | mark
  deriving DecidableEq, Repr

inductive Bracket where
  | round
  | square
  | curly
  deriving DecidableEq, Repr

def Bracket.opening : Bracket → Char
  | round => '('
  | square => '['
  | curly => '{'

def Bracket.closing : Bracket → Char
  | round => ')'
  | square => ']'
  | curly => '}'

inductive SyntaxKind where
  | type (name : String)
  | method (name : String) (parameters : List String)
  | creation
  | constant
  | classBody
  | other
  deriving DecidableEq, Repr

/-- A tree has all of its text in its leaves and brackets, white space and comments included. -/
inductive SyntaxTree where
  | leaf (sort : LeafSort) (text : List Char)
  | group (bracket : Bracket) (inner : List SyntaxTree)
  | node (kind : SyntaxKind) (children : List SyntaxTree)

namespace SyntaxTree

def space : SyntaxTree := .leaf .blank [' ']

def word (text : String) : SyntaxTree := .leaf .word text.toList

def mark (text : String) : SyntaxTree := .leaf .mark text.toList

end SyntaxTree

mutual

def SyntaxTree.text : SyntaxTree → List Char
  | .leaf _ text => text
  | .group bracket inner => bracket.opening :: (spelled inner ++ [bracket.closing])
  | .node _ children => spelled children

def spelled : List SyntaxTree → List Char
  | [] => []
  | tree :: rest => tree.text ++ spelled rest

end

mutual

def SyntaxTree.subtrees : SyntaxTree → List SyntaxTree
  | .leaf sort text => [.leaf sort text]
  | .group bracket inner => .group bracket inner :: subtreesOf inner
  | .node kind children => .node kind children :: subtreesOf children

def subtreesOf : List SyntaxTree → List SyntaxTree
  | [] => []
  | tree :: rest => tree.subtrees ++ subtreesOf rest

end

def blockText? (children : List SyntaxTree) : Option String :=
  match children.getLast? with
  | some (.group .curly inner) => some (String.ofList (strip (spelled inner)))
  | _ => none

def SyntaxKind.outlined (children : List SyntaxTree) : SyntaxKind → NodeKind
  | type name => .type name
  | method name parameters => .method ⟨name, parameters, blockText? children⟩
  | creation => .creation
  | constant => .constant
  | classBody => .classBody
  | other => .other

mutual

def SyntaxTree.outlined (p : Point) : SyntaxTree → Node
  | .leaf _ text => .mk .other ⟨p, (p.afterAll text).byte⟩ []
  | .group bracket inner =>
    .mk .other ⟨p, (p.afterAll (bracket.opening :: (spelled inner ++ [bracket.closing]))).byte⟩
      (outlinedAll (p.after bracket.opening) inner)
  | .node kind children =>
    .mk (kind.outlined children) ⟨p, (p.afterAll (spelled children)).byte⟩ (outlinedAll p children)

def outlinedAll (p : Point) : List SyntaxTree → List Node
  | [] => []
  | tree :: rest => tree.outlined p :: outlinedAll (p.afterAll tree.text) rest

end

def SyntaxTree.outline (package : Option String) (tree : SyntaxTree) : Outline :=
  ⟨package, tree.outlined .zero⟩

theorem Point.byte_after (p : Point) (c : Char) : (p.after c).byte = p.byte + utf8Size c := by
  rw [Point.after]
  split
  case isTrue newline =>
    subst newline
    rfl
  case isFalse => rfl

theorem Point.byte_afterAll (p : Point) (s : List Char) :
    (p.afterAll s).byte = p.byte + (encodeUtf8 s).length := by
  induction s generalizing p with
  | nil => rfl
  | cons c rest ih =>
    calc (p.afterAll (c :: rest)).byte
        = (p.after c).byte + (encodeUtf8 rest).length := ih (p.after c)
      _ = p.byte + (encodeUtf8 (c :: rest)).length := by
        rw [byte_after, length_encodeUtf8_cons, Nat.add_assoc]

theorem Point.afterAll_append (p : Point) (s t : List Char) :
    p.afterAll (s ++ t) = (p.afterAll s).afterAll t := List.foldl_append

theorem utf8Size_opening (bracket : Bracket) : utf8Size bracket.opening = 1 := by
  cases bracket <;> rfl

theorem utf8Size_closing (bracket : Bracket) : utf8Size bracket.closing = 1 := by
  cases bracket <;> rfl

theorem length_encodeUtf8_group (bracket : Bracket) (s : List Char) :
    (encodeUtf8 (bracket.opening :: (s ++ [bracket.closing]))).length =
    1 + (encodeUtf8 s).length + 1 := by
  have last : (encodeUtf8 [bracket.closing]).length = 1 := by
    rw [length_encodeUtf8_cons, utf8Size_closing]
    rfl
  rw [length_encodeUtf8_cons, length_encodeUtf8_append, utf8Size_opening, last, Nat.add_assoc]

@[simp] theorem SyntaxTree.segment_outlined (p : Point) (tree : SyntaxTree) :
    (tree.outlined p).segment = ⟨p.byte, p.byte + (encodeUtf8 tree.text).length⟩ := by
  cases tree <;> exact congrArg (Segment.mk p.byte) (p.byte_afterAll _)

theorem SyntaxTree.span_outlined (p : Point) (tree : SyntaxTree) :
    (tree.outlined p).span = ⟨p, p.byte + (encodeUtf8 tree.text).length⟩ := by
  cases tree <;> exact congrArg (Span.mk p) (p.byte_afterAll _)

mutual

theorem SyntaxTree.outlined_nested (p : Point) : ∀ tree : SyntaxTree, (tree.outlined p).Nested
  | .leaf _ text => by
    refine allNested_nil.mpr ?_
    rw [Point.byte_afterAll]
    exact Nat.le_add_right _ _
  | .group bracket inner => by
    refine (outlinedAll_nested (p.after bracket.opening) inner).widen ?_ ?_
    · rw [Point.byte_after]
      exact Nat.le_add_right _ _
    · have stop := p.byte_afterAll (bracket.opening :: (spelled inner ++ [bracket.closing]))
      rw [length_encodeUtf8_group] at stop
      rw [Point.byte_after, utf8Size_opening]
      simp only [stop]
      omega
  | .node _ children => by
    have nested := outlinedAll_nested p children
    rw [← Point.byte_afterAll] at nested
    exact nested

theorem outlinedAll_nested (p : Point) : ∀ trees : List SyntaxTree,
    AllNested p.byte (p.byte + (encodeUtf8 (spelled trees)).length) (outlinedAll p trees)
  | [] => allNested_nil.mpr (Nat.le_add_right _ _)
  | tree :: rest => by
    have later := outlinedAll_nested (p.afterAll tree.text) rest
    rw [Point.byte_afterAll, Nat.add_assoc, ← length_encodeUtf8_append] at later
    rw [outlinedAll, allNested_cons, tree.span_outlined]
    exact ⟨Nat.le_refl _, tree.outlined_nested p, later⟩

end

theorem exists_of_outlinedAll {p : Point} {trees : List SyntaxTree} {i : Nat} {found : Node}
    (here : (outlinedAll p trees)[i]? = some found) :
    ∃ (before : List SyntaxTree) (tree : SyntaxTree) (after : List SyntaxTree),
      trees = before ++ tree :: after ∧ found = tree.outlined (p.afterAll (spelled before)) := by
  induction trees generalizing p i with
  | nil => cases here
  | cons first rest ih =>
    cases i with
    | zero =>
      cases here
      exact ⟨[], first, rest, rfl, rfl⟩
    | succ i =>
      obtain ⟨before, tree, after, rfl, rfl⟩ := ih here
      refine ⟨first :: before, tree, after, rfl, ?_⟩
      rw [spelled, Point.afterAll_append]

theorem SyntaxTree.mem_subtrees (tree : SyntaxTree) : tree ∈ tree.subtrees := by
  cases tree <;> exact List.mem_cons_self

theorem mem_subtreesOf {front back : List SyntaxTree} {tree sub : SyntaxTree}
    (below : sub ∈ tree.subtrees) :
    sub ∈ subtreesOf (front ++ tree :: back) := by
  induction front with
  | nil => exact List.mem_append_left _ below
  | cons first rest ih => exact List.mem_append_right _ ih

mutual

theorem SyntaxTree.subtrees_trans {sub : SyntaxTree} :
    ∀ {tree : SyntaxTree} {kind : SyntaxKind} {children : List SyntaxTree},
      .node kind children ∈ tree.subtrees → sub ∈ subtreesOf children →
      sub ∈ tree.subtrees
  | .leaf _ _, _, _, member, _ => by simp [SyntaxTree.subtrees] at member
  | .group _ _, _, _, member, below => by
    rw [SyntaxTree.subtrees, List.mem_cons] at member ⊢
    exact .inr (subtreesOf_trans (member.resolve_left SyntaxTree.noConfusion) below)
  | .node _ _, _, _, member, below => by
    rw [SyntaxTree.subtrees, List.mem_cons] at member ⊢
    rcases member with same | later
    · cases same
      exact .inr below
    · exact .inr (subtreesOf_trans later below)

theorem subtreesOf_trans {sub : SyntaxTree} :
    ∀ {trees : List SyntaxTree} {kind : SyntaxKind} {children : List SyntaxTree},
      .node kind children ∈ subtreesOf trees →
      sub ∈ subtreesOf children → sub ∈ subtreesOf trees
  | [], _, _, member, _ => nomatch member
  | _ :: _, _, _, member, below => by
    rw [subtreesOf, List.mem_append] at member ⊢
    exact member.imp (SyntaxTree.subtrees_trans · below) (subtreesOf_trans · below)

end

@[simp] theorem spelled_append (first second : List SyntaxTree) :
    spelled (first ++ second) = spelled first ++ spelled second := by
  induction first with
  | nil => rfl
  | cons tree rest ih => rw [List.cons_append, spelled, spelled, ih, List.append_assoc]

/-- What is at an address of the outline is the node of a tree, at the place where its text
stands. -/
theorem SyntaxTree.exists_of_at? {p : Point} {tree : SyntaxTree} {address : Address} {found : Node}
    (here : (tree.outlined p).at? address = some found) :
    ∃ (before : List Char) (sub : SyntaxTree) (after : List Char),
      sub ∈ tree.subtrees ∧ tree.text = before ++ (sub.text ++ after) ∧
      found = sub.outlined (p.afterAll before) := by
  induction address generalizing p tree with
  | nil =>
    cases here
    exact ⟨[], tree, [], tree.mem_subtrees, by rw [List.append_nil]; rfl, rfl⟩
  | cons i address ih =>
    obtain ⟨child, isChild, below⟩ := Node.at?_cons_eq_some.mp here
    cases tree with
    | leaf => cases isChild
    | group bracket inner =>
      obtain ⟨front, sub, back, rfl, rfl⟩ := exists_of_outlinedAll isChild
      obtain ⟨before, found, after, member, spells, rfl⟩ := ih below
      refine ⟨bracket.opening :: (spelled front ++ before), found,
        after ++ (spelled back ++ [bracket.closing]),
        List.mem_cons_of_mem _ (mem_subtreesOf member), ?_, ?_⟩
      · simp [SyntaxTree.text, spelled, spells]
      · rw [← Point.afterAll_append]
        rfl
    | node kind children =>
      obtain ⟨front, sub, back, rfl, rfl⟩ := exists_of_outlinedAll isChild
      obtain ⟨before, found, after, member, spells, rfl⟩ := ih below
      refine ⟨spelled front ++ before, found, after ++ spelled back,
        List.mem_cons_of_mem _ (mem_subtreesOf member), ?_, ?_⟩
      · simp [SyntaxTree.text, spelled, spells]
      · rw [Point.afterAll_append]

theorem firstByte_append (before text after : List Char) {i : Nat} (inside : i ≤ text.length) :
    firstByte (before ++ (text ++ after)) (before.length + i) =
      (encodeUtf8 before).length + (encodeUtf8 (text.take i)).length := by
  rw [firstByte, List.take_length_add_append, List.take_append_of_le_length inside,
    length_encodeUtf8_append]

theorem SyntaxTree.onCharacters {tree : SyntaxTree} {address : Address} {found : Node}
    (here : (tree.outlined .zero).at? address = some found) :
    found.segment.OnCharacters tree.text := by
  obtain ⟨before, sub, after, _, spells, rfl⟩ := exists_of_at? here
  have start := firstByte_append before sub.text after (Nat.zero_le sub.text.length)
  have stop := firstByte_append before sub.text after (Nat.le_refl sub.text.length)
  rw [← spells] at start stop
  have length := congrArg List.length spells
  simp only [List.length_append] at length
  simp only [segment_outlined, Point.byte_afterAll]
  refine ⟨Nat.le_add_right _ _, ⟨before.length + 0, by omega, ?_⟩,
    before.length + sub.text.length, by omega, ?_⟩
  · rw [start, List.take_zero]
    exact Nat.add_comm _ _
  · rw [stop, List.take_length]
    exact (congrArg (· + _) (Nat.zero_add _)).symm

end CallAtlas.Java
