import CallAtlas.Proofs.OwnPieces
import Mathlib.Data.List.Basic
import Mathlib.Data.List.TakeWhile

/-!
The braces of methods among the pieces of a type: each stands in a method that the index attributes
to the type, after its name and its parameters.
-/

namespace CallAtlas.Java

open Text

theorem append_eq_append_cons {α : Type} {x : α} {xs ys left right : List α}
    (same : xs ++ ys = left ++ x :: right) :
    (∃ more, xs = left ++ x :: more ∧ right = more ++ ys) ∨ ∃ more, left = xs ++ more ∧
      ys = more ++ x :: right := by
  rcases List.append_eq_append_iff.mp same with ⟨more, rfl, rfl⟩ | ⟨_ | ⟨y, more⟩, rfl, tail⟩
  · exact .inr ⟨more, rfl, rfl⟩
  · exact .inr ⟨[], by simp, tail.symm⟩
  · cases tail
    exact .inl ⟨more, rfl, rfl⟩

mutual

theorem SyntaxTree.owner_of_mem {bracket : Bracket} {name : String} {owner : Owner} :
    ∀ {tree : SyntaxTree}, .opening bracket (.method name) ∈ tree.pieces true owner →
      owner = .method name
  | .leaf _ _, member => by simp [SyntaxTree.pieces] at member
  | .group _ inner, member => by
    rw [SyntaxTree.pieces, List.mem_cons, List.mem_append] at member
    rcases member with same | inside | last
    · exact (Piece.opening.inj same).2.symm
    · cases owner_of_mem_piecesOf inside
    · simp at last
  | .node (.type _) _, member => by simp [SyntaxTree.pieces] at member
  | .node .classBody _, member => by simp [SyntaxTree.pieces] at member
  | .node (.method _ _) children, member => by
    rw [SyntaxTree.pieces, if_pos rfl] at member
    cases owner_of_mem_piecesOf member
  | .node .creation children, member | .node .constant children, member => by
    rw [SyntaxTree.pieces] at member
    cases owner_of_mem_piecesOf member
  | .node .other children, member => by
    rw [SyntaxTree.pieces] at member
    exact owner_of_mem_piecesOf member

theorem owner_of_mem_piecesOf {bracket : Bracket} {name : String} {owner : Owner} :
    ∀ {trees : List SyntaxTree}, .opening bracket (.method name) ∈ piecesOf true owner trees →
      owner = .method name
  | [], member => nomatch member
  | tree :: rest, member => by
    rw [piecesOf, List.mem_append] at member
    exact member.elim tree.owner_of_mem owner_of_mem_piecesOf

end

/-- The brace between some pieces stands in the method at an address, which nothing hides. -/
def BraceIn (name : String) (node : Node) (address : Address) (subtrees : List SyntaxTree)
    (left right : List Piece) :
    Prop :=
  ∃ parameters children q before front back after,
    node.at? address = some ((SyntaxTree.node (.method name parameters) children).outlined q) ∧
    node.Open address ∧ typeNames (node.above address) = [] ∧
    .node (.method name parameters) children ∈ subtrees ∧
        left = before ++ front ∧ right = back ++ after ∧
          piecesOf true (.method name) children = front ++ .opening .curly (.method name) :: back

theorem BraceIn.widen {name : String} {node : Node} {address : Address}
    {subtrees others : List SyntaxTree} {left right : List Piece}
    (brace : BraceIn name node address subtrees left right) (more : subtrees ⊆ others)
    (before after : List Piece) : BraceIn name node address others (before ++ left)
    (right ++ after) := by
  obtain ⟨parameters, children, q, first, front, back, last, here, isOpen, names, member, rfl, rfl,
      split⟩ := brace
  exact ⟨parameters, children, q, before ++ first, front, back, last ++ after, here, isOpen,
    names, more member, (List.append_assoc ..).symm, List.append_assoc .., split⟩

theorem BraceIn.below {name : String} {kind : NodeKind} {span : Span} {children : List Node}
    {i : Nat} {child : Node} {address : Address} {subtrees : List SyntaxTree}
    {left right : List Piece} (brace : BraceIn name child address subtrees left right)
    (isChild : children[i]? = some child) (shows : kind.hides = false)
    (noType : kind.typeName? = none) :
    BraceIn name (.mk kind span children) (i :: address) subtrees left right := by
  obtain ⟨parameters, inner, q, first, front, back, last, here, isOpen, names, rest⟩ := brace
  have child : (Node.mk kind span children).children[i]? = some child := isChild
  refine ⟨parameters, inner, q, first, front, back, last,
    Node.at?_cons_eq_some.mpr ⟨_, child, here⟩,
    (Node.open_cons child).mpr ⟨shows, isOpen⟩, ?_, rest⟩
  rw [Node.above_cons child, typeNames_cons, names]
  exact congrArg (Option.toList · ++ []) noType

mutual

theorem SyntaxTree.exists_braceIn {name : String} {owner : Owner} (other : owner ≠ .method name) :
    ∀ {tree : SyntaxTree} {p : Point} {left right : List Piece},
      tree.pieces false owner = left ++ .opening .curly (.method name) :: right →
        ∃ address, BraceIn name (tree.outlined p) address tree.subtrees left right
  | .leaf _ _, _, left, _, split => by
    rw [SyntaxTree.pieces, eq_comm, List.append_eq_singleton_iff] at split
    simp at split
  | .group bracket inner, p, [], _, split => by
    cases split
    exact absurd rfl other
  | .group bracket inner, p, first :: left, right, split => by
    rw [SyntaxTree.pieces, List.cons_append, List.cons.injEq] at split
    obtain ⟨rfl, split⟩ := split
    rcases append_eq_append_cons split with ⟨more, inside, rfl⟩ | ⟨more, _, last⟩
    · obtain ⟨i, child, address, isChild, brace⟩ :=
        exists_braceIn_of_piecesOf (p := p.after bracket.opening) Owner.noConfusion inside
      have brace :=
        brace.widen (List.subset_cons_self (.group bracket inner) _) [.opening bracket owner]
          [.closing bracket]
      exact ⟨i :: address, brace.below isChild rfl rfl⟩
    · rw [eq_comm, List.append_eq_singleton_iff] at last
      simp at last
  | .node (.type _) _, _, _, _, split => by
    rw [SyntaxTree.pieces, eq_comm, List.append_eq_singleton_iff] at split
    simp at split
  | .node .classBody children, p, left, right, split => by
    have split : piecesOf false owner children = left ++ .opening .curly (.method name) :: right :=
      split
    obtain ⟨i, child, address, isChild, brace⟩ := exists_braceIn_of_piecesOf (p := p) other split
    have brace := brace.widen (List.subset_cons_self (.node .classBody children) _) [] []
    rw [List.append_nil] at brace
    exact ⟨i :: address, brace.below isChild rfl rfl⟩
  | .node (.method _ parameters) children, p, left, right, split => by
    rw [SyntaxTree.pieces, if_neg Bool.false_ne_true] at split
    cases owner_of_mem_piecesOf (split ▸ List.mem_append_cons_self)
    exact ⟨[], parameters, children, p, [], left, right, [], rfl, Node.open_nil _, rfl,
      List.mem_cons_self, rfl, (List.append_nil right).symm, split⟩
  | .node .other children, p, left, right, split => by
    have split : piecesOf false owner children = left ++ .opening .curly (.method name) :: right :=
      split
    obtain ⟨i, child, address, isChild, brace⟩ := exists_braceIn_of_piecesOf (p := p) other split
    have brace := brace.widen (List.subset_cons_self (.node .other children) _) [] []
    rw [List.append_nil] at brace
    exact ⟨i :: address, brace.below isChild rfl rfl⟩
  | .node .creation children, _, _, _, split
  | .node .constant children, _, _, _, split => by
    rw [SyntaxTree.pieces] at split
    cases owner_of_mem_piecesOf (split ▸ List.mem_append_cons_self)

theorem exists_braceIn_of_piecesOf {name : String} {owner : Owner} (other : owner ≠ .method name) :
    ∀ {trees : List SyntaxTree} {p : Point} {left right : List Piece},
      piecesOf false owner trees = left ++ .opening .curly (.method name) :: right →
        ∃ (i : Nat) (child : Node) (address : Address), (outlinedAll p trees)[i]? = some child ∧
          BraceIn name child address (subtreesOf trees) left right
  | [], _, left, _, split => by cases left <;> cases split
  | tree :: rest, p, _, _, split => by
    rw [piecesOf] at split
    rcases append_eq_append_cons split with ⟨more, here, rfl⟩ | ⟨more, rfl, later⟩
    · obtain ⟨address, brace⟩ := tree.exists_braceIn (p := p) other here
      exact ⟨0, _, address, rfl, brace.widen (List.subset_append_left _ _) [] _⟩
    · obtain ⟨i, child, address, isChild, brace⟩ :=
        exists_braceIn_of_piecesOf (p := p.afterAll tree.text) other later
      have brace :=
        brace.widen (List.subset_append_right tree.subtrees _) (tree.pieces false owner) []
      rw [List.append_nil] at brace
      exact ⟨i + 1, child, address, isChild, brace⟩

end

def Piece.isGap : Piece → Bool
  | leaf .blank _ | foreign _ => true
  | _ => false

def Piece.isPlain : Piece → Bool
  | leaf .mark text => !text.contains ';'
  | leaf _ _ | foreign _ => true
  | opening _ _ | closing _ => false

def IsTail (pieces : List Piece) : Prop :=
  pieces.all Piece.isGap = true ∨
  ∃ gap types, pieces = gap ++ .leaf .word "throws".toList :: types ∧
    gap.all Piece.isGap = true ∧ types.all Piece.isPlain = true

/-- Whether a list ends with no more than blanks after it, or blanks and `throws`. -/
def resumes : List Piece → Bool
  | [] => false
  | .closing .round :: rest =>
    (match rest.dropWhile Piece.isGap with
      | [] => true
      | .leaf .word text :: _ => text == "throws".toList
      | _ => false) || resumes rest
  | _ :: rest => resumes rest

theorem resumes_append (front : List Piece) {rest : List Piece} (resumed : resumes rest = true) :
    resumes (front ++ rest) = true := by
  induction front with
  | nil => exact resumed
  | cons piece front ih =>
    rw [List.cons_append]
    unfold resumes
    split
    · contradiction
    · rename_i same
      cases same
      rw [ih, Bool.or_true]
    · rename_i same
      cases same
      exact ih

theorem dropWhile_append_cons {α : Type} {test : α → Bool} {xs : List α} {y : α} {ys : List α}
    (all : xs.all test = true) (stops : test y = false) :
    (xs ++ y :: ys).dropWhile test = y :: ys := by
  rw [List.dropWhile_append_of_pos (List.all_eq_true.mp all),
    List.dropWhile_cons_of_neg (Bool.not_eq_true _ ▸ stops)]

theorem IsTail.resumes {tail : List Piece} (isTail : IsTail tail) :
    resumes (.closing .round :: tail) = true := by
  rw [Java.resumes]
  rcases isTail with gap | ⟨gap, types, rfl, isGap, _⟩
  · have all : tail.dropWhile Piece.isGap = [] :=
      List.dropWhile_eq_nil_iff.mpr (List.all_eq_true.mp gap)
    rw [all]
    rfl
  · rw [dropWhile_append_cons isGap rfl]
    rfl

theorem IsTail.no_round {tail : List Piece} (isTail : IsTail tail) : .closing .round ∉ tail := by
  intro member
  rcases isTail with gap | ⟨gap, types, rfl, isGap, plain⟩
  · cases List.all_eq_true.mp gap _ member
  · rcases List.mem_append.mp member with inGap | later
    · cases List.all_eq_true.mp isGap _ inGap
    · rcases List.mem_cons.mp later with same | inTypes
      · cases same
      · cases List.all_eq_true.mp plain _ inTypes

def Piece.reopen : Piece → Option Nat → Option Nat
  | closing .round, count => count.map (· + 1)
  | opening .round _, some (n + 1) => some n
  | opening .round _, _ => none
  | _, count => count

theorem foldr_reopen_none (pieces : List Piece) : pieces.foldr Piece.reopen none = none := by
  induction pieces with
  | nil => rfl
  | cons piece rest ih =>
    rw [List.foldr_cons, ih, Piece.reopen.eq_def]
    split <;> first | rfl | contradiction

mutual

theorem SyntaxTree.foldr_reopen {n : Nat} {hidden : Bool} {owner : Owner} :
    ∀ tree : SyntaxTree, (tree.pieces hidden owner).foldr Piece.reopen (some n) = some n
  | .leaf _ _ => rfl
  | .group bracket inner => by
    rw [SyntaxTree.pieces, List.foldr_cons, List.foldr_append]
    cases bracket <;> exact congrArg _ (foldr_reopen_piecesOf inner)
  | .node (.type _) _ => rfl
  | .node .classBody children => by
    rw [SyntaxTree.pieces]
    split
    · rfl
    · exact foldr_reopen_piecesOf children
  | .node (.method _ _) children | .node .creation children | .node .constant children |
    .node .other children => by
    rw [SyntaxTree.pieces]
    exact foldr_reopen_piecesOf children

theorem foldr_reopen_piecesOf {n : Nat} {hidden : Bool} {owner : Owner} :
    ∀ trees : List SyntaxTree, (piecesOf hidden owner trees).foldr Piece.reopen (some n) = some n
  | [] => rfl
  | tree :: rest =>
    by rw [piecesOf, List.foldr_append, foldr_reopen_piecesOf rest, tree.foldr_reopen]

end

theorem eq_of_opening {first second list other : List Piece} {owner owner' : Owner}
    (same : first ++ .opening .round owner :: list = second ++ .opening .round owner' :: other)
    (closed : list.foldr Piece.reopen (some 0) = some 0)
    (closed' : other.foldr Piece.reopen (some 0) = some 0) :
    first = second ∧ list = other := by
  have never (front : List Piece) {rest : List Piece} {owner : Owner}
      (closed : rest.foldr Piece.reopen (some 0) = some 0) :
      (front ++ .opening .round owner :: rest).foldr Piece.reopen (some 0) = none := by
    rw [List.foldr_append, List.foldr_cons, closed]
    exact foldr_reopen_none front
  rcases append_eq_append_cons same with ⟨more, rfl, tail⟩ | ⟨_ | ⟨piece, more⟩, rfl, tail⟩
  · rw [tail, never more closed] at closed'
    cases closed'
  · cases tail
    exact ⟨(List.append_nil first).symm, rfl⟩
  · rw [List.cons_append, List.cons.injEq] at tail
    rw [tail.2, never more closed'] at closed
    cases closed

namespace SyntaxTree

def isTrivia : SyntaxTree → Bool
  | .leaf .blank _ | .leaf .comment _ => true
  | _ => false

def isWord (name : String) : SyntaxTree → Bool
  | .leaf .word text => text == name.toList
  | _ => false

end SyntaxTree

/-- A clause and a block. In the clause there is no other brace of the method, and no list with the
block or `throws` right after it. -/
def endsInBlock (owner : Owner) (trees : List SyntaxTree) : Bool :=
  match trees.getLast? with
  | some (.group .curly _) =>
    decide (.opening .curly owner ∉ piecesOf true owner trees.dropLast) &&
      !resumes (piecesOf true owner trees.dropLast)
  | _ => false

def listsThenBlock (owner : Owner) : List SyntaxTree → Bool
  | [] => false
  | .group .round _ :: rest => endsInBlock owner rest
  | tree :: rest => tree.isTrivia && listsThenBlock owner rest

def namesThenBlock (name : String) : List SyntaxTree → Bool
  | [] => false
  | tree :: rest => tree.isWord name && listsThenBlock (.method name) rest ||
      decide (.opening .curly (.method name) ∉ tree.pieces true (.method name)) &&
      namesThenBlock name rest

/-- Methods are written with their name before the parameters; constructors have another, and
methods without a body no block. -/
def HeadsBlock (name : String) (children : List SyntaxTree) : Prop :=
  name = "<init>" ∨ .opening .curly (.method name) ∉ piecesOf true (.method name) children ∨
    namesThenBlock name children = true

instance (name : String) (children : List SyntaxTree) : Decidable (HeadsBlock name children) :=
  inferInstanceAs (Decidable (_ ∨ _ ∨ _))

theorem exists_of_endsInBlock {owner : Owner} {trees : List SyntaxTree}
    (ends : endsInBlock owner trees = true) :
    ∃ clause inner, trees = clause ++ [.group .curly inner] ∧
      .opening .curly owner ∉ piecesOf true owner clause ∧
      resumes (piecesOf true owner clause) = false := by
  unfold endsInBlock at ends
  split at ends
  case h_1 inner last =>
    obtain ⟨clause, rfl⟩ := List.getLast?_eq_some_iff.mp last
    rw [List.dropLast_concat, Bool.and_eq_true, decide_eq_true_iff, Bool.not_eq_true'] at ends
    exact ⟨clause, inner, rfl, ends⟩
  case h_2 => cases ends

theorem exists_of_listsThenBlock {owner : Owner} {trees : List SyntaxTree}
    (lists : listsThenBlock owner trees = true) :
    ∃ gap parameters rest, trees = gap ++ .group .round parameters :: rest ∧
      (∀ tree ∈ gap, tree.isTrivia = true) ∧ endsInBlock owner rest = true := by
  induction trees with
  | nil => cases lists
  | cons tree trees ih =>
    unfold listsThenBlock at lists
    split at lists
    · contradiction
    · rename_i parameters rest same
      cases same
      exact ⟨[], parameters, trees, rfl, List.forall_mem_nil _, lists⟩
    · rename_i same
      cases same
      obtain ⟨trivia, later⟩ := Bool.and_eq_true_iff.mp lists
      obtain ⟨gap, parameters, rest, rfl, all, ends⟩ := ih later
      exact ⟨tree :: gap, parameters, rest, rfl, List.forall_mem_cons.mpr ⟨trivia, all⟩, ends⟩

theorem exists_of_namesThenBlock {name : String} {trees : List SyntaxTree}
    (names : namesThenBlock name trees = true) :
    ∃ lead rest, trees = lead ++ .leaf .word name.toList :: rest ∧
      .opening .curly (.method name) ∉ piecesOf true (.method name) lead ∧
        listsThenBlock (.method name) rest = true := by
  induction trees with
  | nil => cases names
  | cons tree trees ih =>
    rw [namesThenBlock, Bool.or_eq_true, Bool.and_eq_true, Bool.and_eq_true,
      decide_eq_true_iff] at names
    rcases names with ⟨isName, lists⟩ | ⟨free, later⟩
    · refine ⟨[], trees, ?_, List.not_mem_nil, lists⟩
      unfold SyntaxTree.isWord at isName
      split at isName
      · rw [eq_of_beq isName]
        rfl
      · cases isName
    · obtain ⟨lead, rest, rfl, free', lists⟩ := ih later
      refine ⟨tree :: lead, rest, rfl, ?_, lists⟩
      rw [piecesOf, List.mem_append, not_or]
      exact ⟨free, free'⟩

theorem piecesOf_append (hidden : Bool) (owner : Owner) (first second : List SyntaxTree) :
    piecesOf hidden owner (first ++ second) = piecesOf hidden owner first ++
    piecesOf hidden owner second := by
  induction first with
  | nil => rfl
  | cons tree rest ih => rw [List.cons_append, piecesOf, piecesOf, ih, List.append_assoc]

def Piece.isTrivia : Piece → Bool
  | leaf .blank _ | leaf .comment _ | foreign _ => true
  | _ => false

theorem piecesOf_trivia {hidden : Bool} {owner : Owner} {trees : List SyntaxTree}
    (trivia : ∀ tree ∈ trees, tree.isTrivia = true) :
    (piecesOf hidden owner trees).all Piece.isTrivia = true := by
  induction trees with
  | nil => rfl
  | cons tree rest ih =>
    rw [List.forall_mem_cons] at trivia
    rw [piecesOf, List.all_append, ih trivia.2, Bool.and_true]
    have here := trivia.1
    unfold SyntaxTree.isTrivia at here
    split at here
    · rfl
    · rfl
    · cases here

structure HeadPieces (name : String) (pieces : List Piece) where
  lead : List Piece
  gap : List Piece
  parameters : List Piece
  clause : List Piece
  spells : pieces = lead ++ .leaf .word name.toList ::
    (gap ++ .opening .round (.method name) :: (parameters ++ .closing .round :: clause))
  trivia : gap.all Piece.isTrivia = true
  closed : parameters.foldr Piece.reopen (some 0) = some 0
  stays : resumes clause = false

theorem HeadsBlock.exists_head {name : String} {children : List SyntaxTree}
    (heads : HeadsBlock name children) (named : name ≠ "<init>") {front back : List Piece}
    (split : piecesOf true (.method name) children =
      front ++ .opening .curly (.method name) :: back) :
    ∃ inner, Nonempty (HeadPieces name front) ∧
      back = piecesOf true .none inner ++ [.closing .curly] ∧
      blockText? children = some (String.ofList (strip (spelled inner))) := by
  have brace : Piece.opening .curly (.method name) ∈ piecesOf true (.method name) children := by
    rw [split]
    simp
  have names := (heads.resolve_left named).resolve_left (not_not_intro brace)
  obtain ⟨lead, rest, rfl, freeLead, lists⟩ := exists_of_namesThenBlock names
  obtain ⟨gap, parameters, rest, rfl, trivia, ends⟩ := exists_of_listsThenBlock lists
  obtain ⟨clause, inner, rfl, freeClause, stays⟩ := exists_of_endsInBlock ends
  have free {trees : List SyntaxTree} :
      .opening .curly (.method name) ∉ piecesOf true .none trees :=
    fun member => nomatch owner_of_mem_piecesOf member
  have freeGap : .opening .curly (.method name) ∉ piecesOf true (.method name) gap := by
    intro member
    cases List.all_eq_true.mp (piecesOf_trivia trivia) _ member
  have spells : piecesOf true (.method name) (lead ++ .leaf .word name.toList ::
      (gap ++ .group .round parameters :: (clause ++ [.group .curly inner]))) =
        (piecesOf true (.method name) lead ++ .leaf .word name.toList ::
          (piecesOf true (.method name) gap ++ .opening .round (.method name) ::
            (piecesOf true .none parameters ++ .closing .round ::
            piecesOf true (.method name) clause))) ++
          .opening .curly (.method name) :: (piecesOf true .none inner ++ [.closing .curly]) := by
    simp [piecesOf_append, piecesOf, SyntaxTree.pieces]
  rw [spells, List.append_cons_inj_of_notMem] at split
  · obtain ⟨rfl, _, rfl⟩ := split
    refine ⟨inner,
      ⟨⟨_, _, _, _, rfl, piecesOf_trivia trivia, foldr_reopen_piecesOf parameters, stays⟩⟩, rfl, ?_⟩
    have last :
        lead ++ .leaf .word name.toList ::
        (gap ++ .group .round parameters :: (clause ++ [.group .curly inner])) =
        (lead ++ .leaf .word name.toList :: (gap ++ .group .round parameters :: clause)) ++
        [.group .curly inner] := by simp
    rw [blockText?, last, List.getLast?_concat]
  · simp [freeLead, freeGap, freeClause, free]
  · simp [free]

/-- The word before a list and a block is the name of the method that has the block. -/
theorem HeadPieces.eq_name {name : String} {word : List Char}
    {before front left gap list tail : List Piece}
    {owner : Owner} (head : HeadPieces name front) (isGap : gap.all Piece.isGap = true)
    (closed : list.foldr Piece.reopen (some 0) = some 0) (isTail : IsTail tail)
    (same : left ++ .leaf .word word ::
      (gap ++ .opening .round owner :: (list ++ .closing .round :: tail)) =
      before ++ front) : word = name.toList := by
  obtain ⟨lead, trivia, parameters, clause, rfl, isTrivia, closed', stays⟩ := head
  have ends : (left ++ .leaf .word word :: (gap ++ .opening .round owner :: list)) ++
      .closing .round :: tail =
      (before ++ (lead ++ .leaf .word name.toList ::
        (trivia ++ .opening .round (.method name) :: parameters))) ++
        .closing .round :: clause := by
    simpa using same
  rcases append_eq_append_cons ends with ⟨more, _, rfl⟩ | ⟨_ | ⟨piece, more⟩, first, later⟩
  · rw [resumes_append more isTail.resumes] at stays
    cases stays
  · rw [List.append_nil] at first
    have lists : (left ++ .leaf .word word :: gap) ++ .opening .round owner :: list =
        (before ++ (lead ++ .leaf .word name.toList :: trivia)) ++ .opening .round (.method name) ::
        parameters := by
      simpa using first.symm
    have words :
        left ++ .leaf .word word :: gap =
        (before ++ lead) ++ .leaf .word name.toList :: trivia := by
      simpa using (eq_of_opening lists closed closed').1
    rcases append_eq_append_cons words with ⟨more, _, rfl⟩ | ⟨_ | ⟨piece, more⟩, _, rest⟩
    · cases List.all_eq_true.mp isTrivia (.leaf .word word) (by simp)
    · cases rest
      rfl
    · rw [List.cons_append, List.cons.injEq] at rest
      rw [rest.2] at isGap
      cases List.all_eq_true.mp isGap (.leaf .word name.toList) (by simp)
  · rw [List.cons_append, List.cons.injEq] at later
    refine (isTail.no_round ?_).elim
    rw [later.2]
    simp

def SyntaxTree.methodParts (tree : SyntaxTree) : List (String × List SyntaxTree) :=
  tree.subtrees.filterMap fun
    | .node (.method name _) children => some (name, children)
    | _ => none

def SyntaxTree.typeParts (tree : SyntaxTree) : List (List SyntaxTree) :=
  tree.subtrees.filterMap fun
    | .node (.type _) children => some children
    | _ => none

theorem mem_methods_of_methodAt {outline : Outline} {key : String} {type : SourceType}
    (nested : outline.root.Nested) (present : outline.index.get? key = some type)
    {method : SourceMethod} {address : Address}
    (stands : MethodAt outline.package outline.root key method address) :
    method ∈ (type.methods.get? method.name).getD [] := by
  obtain ⟨addresses, _, all, pairs⟩ := (index_listsMethods nested present method.name).1
  have listed : address ∈ addresses := (all address).mpr ⟨method, stands, rfl⟩
  obtain ⟨found, member, again⟩ := exists_of_forall₂_right pairs listed
  obtain ⟨node, sketch, here, isMethod, _, _, _, rfl⟩ := stands
  obtain ⟨_, _, here', isMethod', _, _, _, rfl⟩ := again
  cases here.symm.trans here'
  cases isMethod.symm.trans isMethod'
  exact member

theorem FirstDeclaration.exists_bracket {package : Option String} {tree : SyntaxTree} {key : String}
    {declaration : FirstDeclaration package tree key} {bracket : Bracket} {owner : Owner}
    {left right : List Piece}
    (split : declaration.pieces = left ++ .opening bracket owner :: right) :
    ∃ before after, left = .foreign declaration.before :: before ∧
      right = after ++ [.foreign declaration.after] ∧
      piecesOf false .type declaration.children = before ++ .opening bracket owner :: after := by
  rw [pieces] at split
  cases left with
  | nil => cases split
  | cons piece before =>
    obtain ⟨rfl, later⟩ := List.cons.inj split
    rcases append_eq_append_cons later with ⟨after, inside, rfl⟩ | ⟨more, _, last⟩
    · exact ⟨before, after, rfl, rfl, inside⟩
    · rw [eq_comm, List.append_eq_singleton_iff] at last
      simp at last

theorem FirstDeclaration.methodAt {package : Option String} {tree : SyntaxTree} {key : String}
    (declaration : FirstDeclaration package tree key) {i : Nat} {child node : Node}
    {address : Address} {sketch : MethodSketch}
    (isChild : (outlinedAll (Point.zero.afterAll declaration.before) declaration.children)[i]? =
      some child)
    (here : child.at? address = some node) (isMethod : node.kind = .method sketch)
    (isOpen : child.Open address) (names : typeNames (child.above address) = []) :
    MethodAt package (tree.outlined .zero) key (.ofSketch sketch node.span)
    (declaration.address ++ i :: address) := by
  obtain ⟨_, simple, here', isType, openType, isName⟩ := id declaration.declared
  cases declaration.here.symm.trans here'
  cases isType
  have isChild' : (SyntaxTree.outlined (Point.zero.afterAll declaration.before)
      (.node (.type declaration.simple) declaration.children)).children[i]? = some child := isChild
  have path : (tree.outlined .zero).above (declaration.address ++ i :: address) =
      (tree.outlined .zero).above declaration.address ++ .type declaration.simple ::
      child.above address := by
    rw [Node.above_append declaration.here, Node.above_cons isChild']
    rfl
  have types : typeNames ((tree.outlined .zero).above (declaration.address ++ i :: address)) =
      typeNames ((tree.outlined .zero).above declaration.address) ++ [declaration.simple] := by
    rw [path, typeNames_append, typeNames_cons, names]
    rfl
  refine ⟨node, sketch,
    (Node.at?_append declaration.here _).trans (Node.at?_cons_eq_some.mpr ⟨child, isChild', here⟩),
    isMethod, ?_, ?_, ?_, rfl⟩
  · rw [Node.Open, path, List.forall_mem_append, List.forall_mem_cons]
    exact ⟨openType, rfl, isOpen⟩
  · rw [types]
    exact List.append_ne_nil_of_right_ne_nil _ (List.cons_ne_nil _ _)
  · rw [types]
    exact isName

/-- A brace of a method among the pieces of a type: it opens the body of a method that the index
attributes to the type. -/
theorem FirstDeclaration.exists_method {package : Option String} {tree : SyntaxTree} {key : String}
    {type : SourceType} (declaration : FirstDeclaration package tree key)
    (present : (tree.outline package).index.get? key = some type)
    (heads : ∀ method ∈ tree.methodParts, HeadsBlock method.1 method.2) {name : String}
    (named : name ≠ "<init>") {left right : List Piece}
    (split : declaration.pieces = left ++ .opening .curly (.method name) :: right) :
    ∃ method ∈ (type.methods.get? name).getD [], ∃ inner before front after,
      method.body = some (String.ofList (strip (spelled inner))) ∧ left = before ++ front ∧
        right = piecesOf true .none inner ++ .closing .curly :: after ∧
        Nonempty (HeadPieces name front) := by
  obtain ⟨left, more, rfl, rfl, inside⟩ := exists_bracket split
  obtain ⟨i, child, address, isChild, parameters, children, q, before, front, back, after, here,
    isOpen, names, member, rfl, rfl, own⟩ :=
      exists_braceIn_of_piecesOf
        (p := Point.zero.afterAll declaration.before) Owner.noConfusion inside
  have listed : (name, children) ∈ tree.methodParts :=
    List.mem_filterMap.mpr ⟨_, SyntaxTree.subtrees_trans declaration.member member, rfl⟩
  obtain ⟨inner, head, rfl, body⟩ := (heads _ listed).exists_head named own
  have stands := declaration.methodAt isChild here rfl isOpen names
  refine ⟨_, mem_methods_of_methodAt (tree.outlined_nested .zero) present stands, inner,
    .foreign declaration.before :: before, front, after ++ [.foreign declaration.after],
    body, rfl, ?_, head⟩
  simp

end CallAtlas.Java
