import CallAtlas.Proofs.LexedPieces

/-!
The search for a body against the syntax tree. What is found in the text of a type is the body of a
method that the index attributes to the type, unless the name is read where the text misleads.
-/

namespace CallAtlas.Java

open Text

def Piece.isRound : Piece → Bool
  | opening .round _ | closing .round => true
  | _ => false

def leadsTo? (pieces : List Piece) : Option Owner :=
  match pieces.dropWhile Piece.isGap with
  | .opening .curly owner :: _ => some owner
  | .leaf .word text :: rest =>
    if text = "throws".toList then
      match rest.dropWhile Piece.isPlain with
      | .opening .curly owner :: _ => some owner
      | _ => none
    else none
  | _ => none

def heads? (pieces : List Piece) : Option Owner :=
  match pieces.dropWhile Piece.isGap with
  | .opening .round _ :: rest =>
    match rest.dropWhile (!·.isRound) with
    | .closing .round :: rest => leadsTo? rest
    | _ => none
  | _ => none

def blockWords : List (List Char) :=
  ["if", "while", "for", "switch", "synchronized", "try", "catch"].map String.toList

/-- Whether every block that a list heads, and that belongs to no declaration, has one of these
words before its list. -/
def blocksHeaded : List Piece → Bool
  | [] => true
  | .leaf .word word :: rest =>
    (heads? rest != some .none || blockWords.contains word) && blocksHeaded rest
  | _ :: rest => blocksHeaded rest

structure IsIdentifier (name : List Char) : Prop where
  filled : name ≠ []
  parts : name.all isPart = true
  free : name ∉ blockWords

/-- Text that goes on after the name of a method as the search has it, up to the brace before
`opened`. -/
def ReadsOn (text opened : List Char) : Prop :=
  ∃ signature, text = signature ++ '{' :: opened ∧ IsSignature signature

/-- What can follow a name other than the parameters, the clause and the body of a method of that
name. -/
inductive Strays : List Piece → Prop where
  /-- The name is that of a constructor or a record. -/
  | header {pieces : List Piece} {owner : Owner} (heads : heads? pieces = some owner)
      (other : owner = .type ∨ owner = .method "<init>") : Strays pieces
  /-- The first closing parenthesis is in a comment or a literal. -/
  | quietList {gap list rest : List Piece} {owner : Owner} {piece : Piece}
      (isGap : gap.all Piece.isGap = true) (unclosed : .closing .round ∉ list)
      (quiet : piece.isQuiet = true) (closes : ')' ∈ piece.shown) :
      Strays (gap ++ .opening .round owner :: (list ++ piece :: rest))
  /-- The first closing parenthesis closes another list. -/
  | nestedList {gap list rest : List Piece} {owner other : Owner}
      (isGap : gap.all Piece.isGap = true) (unclosed : .closing .round ∉ list)
      (nested : .opening .round other ∈ list) :
      Strays (gap ++ .opening .round owner :: (list ++ .closing .round :: rest))
  /-- The clause is none, has a bracket or the end of a statement in it, or has its brace in a
  comment or a literal. -/
  | clause {gap list gap' types rest : List Piece} {owner : Owner} {word : List Char}
      {piece : Piece} (isGap : gap.all Piece.isGap = true) (isList : list.all (!·.isRound) = true)
      (isGap' : gap'.all Piece.isGap = true) (begins : "throws".toList <+: word)
      (unopened : '{' ∉ shownOf types) (opens : '{' ∈ piece.shown)
      (other : word ≠ "throws".toList ∨ types.all Piece.isPlain = false ∨ piece.isQuiet = true) :
      Strays (gap ++ .opening .round owner ::
        (list ++ .closing .round :: (gap' ++ .leaf .word word :: (types ++ piece :: rest))))
  /-- Comments or literals of the body have braces that do not pair up. -/
  | block {gap list tail rest : List Piece} {owner : Owner} {name : String}
      {inner : List SyntaxTree} (isGap : gap.all Piece.isGap = true)
      (isList : list.all (!·.isRound) = true) (isTail : IsTail tail)
      (unpaired : ¬ Balanced (shownOf (piecesOf true .none inner))) :
      Strays (gap ++ .opening .round owner ::
        (list ++ .closing .round :: (tail ++ .opening .curly (.method name) ::
          (piecesOf true .none inner ++ .closing .curly :: rest))))

/-- An occurrence of a name that the search takes for the head of a method with its body in
`opened`: in a comment or a literal, or as a word with something else after it. -/
inductive Misleads (name opened : List Char) : List Piece → Prop where
  | quiet {sort : LeafSort} {text before after : List Char} {rest : List Piece}
      (quiet : (Piece.leaf sort text).isQuiet = true) (spells : text = before ++ (name ++ after))
      (reads : ReadsOn (after ++ shownOf rest) opened) :
      Misleads name opened (.leaf sort text :: rest)
  | word {rest : List Piece} (reads : ReadsOn (shownOf rest) opened) (strays : Strays rest) :
      Misleads name opened (.leaf .word name :: rest)

theorem leadsTo?_append {tail rest : List Piece} {owner : Owner} (isTail : IsTail tail) :
    leadsTo? (tail ++ .opening .curly owner :: rest) = some owner := by
  rcases isTail with isGap | ⟨gap, types, rfl, isGap, plain⟩
  · rw [leadsTo?, dropWhile_append_cons isGap rfl]
  · rw [leadsTo?, List.append_assoc, List.cons_append, dropWhile_append_cons isGap rfl]
    simp only [if_true,
      dropWhile_append_cons plain (rfl : Piece.isPlain (.opening .curly owner) = false)]

theorem heads?_append {gap list tail rest : List Piece} {owner owner' : Owner}
    (isGap : gap.all Piece.isGap = true) (isList : list.all (!·.isRound) = true)
    (isTail : IsTail tail) :
    heads? (gap ++ .opening .round owner' ::
      (list ++ .closing .round :: (tail ++ .opening .curly owner :: rest))) = some owner := by
  rw [heads?, dropWhile_append_cons isGap rfl]
  simp only [dropWhile_append_cons isList (rfl : (!Piece.isRound (.closing .round)) = false),
    leadsTo?_append isTail]

theorem mem_blockWords {before rest : List Piece} {word : List Char}
    (headed : blocksHeaded (before ++ .leaf .word word :: rest) = true)
    (heads : heads? rest = some .none) : word ∈ blockWords := by
  induction before with
  | nil =>
    rw [List.nil_append, blocksHeaded, heads, bne_self_eq_false, Bool.false_or,
      Bool.and_eq_true] at headed
    exact List.contains_iff_mem.mp headed.1
  | cons piece before ih =>
    refine ih ?_
    rw [List.cons_append, blocksHeaded.eq_def] at headed
    split at headed
    · contradiction
    · next is =>
      obtain ⟨rfl, rfl⟩ := List.cons.inj is
      exact (Bool.and_eq_true _ _ ▸ headed).2
    · next is =>
      obtain ⟨rfl, rfl⟩ := List.cons.inj is
      exact headed

theorem foldr_reopen_of_no_round {list : List Piece}
    (isList : list.all (!·.isRound) = true) {n : Nat} :
    list.foldr Piece.reopen (some n) = some n := by
  induction list with
  | nil => rfl
  | cons piece rest ih =>
    rw [List.all_cons, Bool.and_eq_true, Bool.not_eq_true'] at isList
    rw [List.foldr_cons, ih isList.2, Piece.reopen.eq_def]
    split
    · cases isList.1
    · cases isList.1
    · cases isList.1
    · rfl

theorem exists_list {pieces : List Piece} (tokens : ∀ piece ∈ pieces, piece.isToken = true)
    {parameters rest : List Char} (same : shownOf pieces = parameters ++ ')' :: rest)
    (unclosed : ')' ∉ parameters) :
    (∃ list after, pieces = list ++ .closing .round :: after ∧ list.all (!·.isRound) = true ∧
      parameters = shownOf list ∧ rest = shownOf after) ∨
        ∀ gap owner, gap.all Piece.isGap = true →
          Strays (gap ++ .opening .round owner :: pieces) := by
  obtain ⟨list, piece, after, rfl, inside, found⟩ := exists_bracket tokens same (by decide)
  have none : .closing .round ∉ list := by
    intro member
    exact unclosed (inside.subset (List.mem_flatMap.mpr ⟨_, member, List.mem_singleton_self _⟩))
  rcases found with ⟨rfl, rfl, ⟨b, _, _, is⟩ | ⟨b, rfl, is⟩⟩ | ⟨quiet, closes⟩
  · cases b <;> cases is
  · obtain rfl : b = .round := by cases b <;> first | rfl | cases is
    by_cases nested : ∃ other, .opening .round other ∈ list
    · obtain ⟨other, nested⟩ := nested
      exact .inr fun gap owner isGap => .nestedList isGap none nested
    · refine .inl ⟨list, after, rfl, ?_, rfl, rfl⟩
      rw [List.all_eq_true]
      intro piece member
      rw [Bool.not_eq_true', ← Bool.not_eq_true]
      intro round
      unfold Piece.isRound at round
      split at round
      · exact nested ⟨_, member⟩
      · exact none member
      · cases round
  · exact .inr fun gap owner isGap => .quietList isGap none quiet closes

/-- A clause begins with a word, and goes on in what follows the word. -/
theorem Lexed.exists_throws {before after : List Piece} (lexed : Lexed (before ++ after))
    {blanks thrown rest : List Char} (blank : blanks.all isBlank = true)
    (same : shownOf after = blanks ++ ("throws".toList ++ (thrown ++ '{' :: rest))) :
    ∃ gap ending types more, after = gap ++ .leaf .word ("throws".toList ++ ending) :: more ∧
      gap.all Piece.isGap = true ∧ blanks = shownOf gap ∧ thrown = ending ++ types ∧
      shownOf more = types ++ '{' :: rest := by
  have tokens : ∀ piece ∈ after, piece.isToken = true := fun piece member =>
    lexed.tokens piece (List.mem_append_right before member)
  have spells : shownOf after = blanks ++ 't' :: ("hrows".toList ++ (thrown ++ '{' :: rest)) := by
    rw [same]
    simp
  obtain ⟨gap, piece, more, q, rfl, isGap, rfl, shows, later⟩ :=
    exists_gap tokens spells blank (by decide)
  have token : piece.isToken = true := tokens piece (by simp)
  obtain ⟨word, rfl⟩ :=
    Piece.eq_word_of_class ((Piece.class_of_head token shows).symm.trans (by decide))
  have word_eq : word = 't' :: q := shows
  have lexed' : Lexed ((before ++ gap) ++ .leaf .word word :: more) := by rwa [List.append_assoc]
  have reads : word ++ shownOf more = "throws".toList ++ (thrown ++ '{' :: rest) := by
    rw [word_eq, List.cons_append, ← later]
    rfl
  obtain ⟨ending, rfl⟩ : "throws".toList <+: word :=
    lexed'.prefix_of_parts (p := []) rfl (by rw [word_eq]; exact List.cons_ne_nil _ _)
      (by decide) reads
  rw [List.append_assoc] at reads
  rcases append_eq_append_cons (List.append_cancel_left reads) with
    ⟨extra, inWord, _⟩ | ⟨types, rfl, goesOn⟩
  · have member : '{' ∈ "throws".toList ++ ending := by
      rw [inWord]
      simp
    have part : classOf '{' = .part :=
      (Piece.class_of_mem token member).resolve_right Bool.false_ne_true
    exact absurd part (by decide)
  · exact ⟨gap, ending, types, more, rfl, isGap, rfl, rfl, goesOn⟩

theorem Lexed.exists_tail {before after : List Piece} (lexed : Lexed (before ++ after))
    {clause rest : List Char} (same : shownOf after = clause ++ '{' :: rest)
    (isClause : IsClause clause) :
    (∃ tail owner more, after = tail ++ .opening .curly owner :: more ∧ IsTail tail ∧
      rest = shownOf more) ∨
    ∀ gap list owner, gap.all Piece.isGap = true → list.all (!·.isRound) = true →
      Strays (gap ++ .opening .round owner :: (list ++ .closing .round :: after)) := by
  have tokens : ∀ piece ∈ after, piece.isToken = true := fun piece member =>
    lexed.tokens piece (List.mem_append_right before member)
  obtain ⟨blanks, _, rfl, blank, rfl | ⟨thrown, rfl, unopened⟩⟩ := isClause
  · rw [List.append_nil] at same
    obtain ⟨gap, piece, more, q, rfl, isGap, rfl, shows, rfl⟩ :=
      exists_gap tokens same blank (by decide)
    obtain ⟨rfl, owner, rfl⟩ :=
      Piece.eq_opening_of_head (b := .curly) (tokens piece (by simp)) shows
    exact .inl ⟨gap, owner, more, rfl, .inl isGap, rfl⟩
  · rw [List.append_assoc, List.append_assoc] at same
    obtain ⟨gap, ending, types, more, rfl, isGap, rfl, rfl, spells⟩ :=
      lexed.exists_throws blank same
    obtain ⟨list, piece, last, rfl, inside, found⟩ :=
      exists_bracket (fun piece member => tokens piece (by simp [member])) spells (by decide)
    have unopenedList : '{' ∉ shownOf list := by
      intro member
      exact unopened (List.mem_append_right _ (inside.subset member))
    have stray (opens : '{' ∈ piece.shown) (other : "throws".toList ++ ending ≠ "throws".toList ∨
        list.all Piece.isPlain = false ∨ piece.isQuiet = true) (gap' list' : List Piece)
        (owner : Owner) (isGap' : gap'.all Piece.isGap = true)
        (isList : list'.all (!·.isRound) = true) :
        Strays (gap' ++ .opening .round owner :: (list' ++ .closing .round ::
          (gap ++ .leaf .word ("throws".toList ++ ending) :: (list ++ piece :: last)))) :=
      .clause isGap' isList isGap (List.prefix_append _ ending) unopenedList opens other
    rcases found with ⟨rfl, rfl, ⟨b, owner, rfl, is⟩ | ⟨b, _, is⟩⟩ | ⟨quiet, opens⟩
    · obtain rfl : b = .curly := by cases b <;> first | rfl | cases is
      by_cases isThrows : "throws".toList ++ ending = "throws".toList
      · cases plain : list.all Piece.isPlain with
        | true =>
          rw [isThrows]
          refine .inl ⟨gap ++ .leaf .word "throws".toList :: list, owner, last, ?_,
            .inr ⟨gap, list, rfl, isGap, plain⟩, rfl⟩
          rw [List.append_assoc, List.cons_append]
        | false => exact .inr (stray (List.mem_singleton_self _) (.inr (.inl plain)))
      · exact .inr (stray (List.mem_singleton_self _) (.inl isThrows))
    · cases b <;> cases is
    · exact .inr (stray opens (.inr (.inr quiet)))

/-- A name, a list and a clause that the search takes for the head of a method are one, or
mislead. -/
theorem Lexed.exists_head {pieces : List Piece} (lexed : Lexed pieces)
    {front name signature rest : List Char}
    (same : shownOf pieces = front ++ (name ++ (signature ++ '{' :: rest)))
    (blank : front.getLast?.any isBlank = true) (filled : name ≠ [])
    (parts : name.all isPart = true) (signs : IsSignature signature) :
    (∃ before after, pieces = before ++ after ∧ Misleads name rest after) ∨
      ∃ before gap opener list tail owner after,
        pieces = before ++ .leaf .word name :: (gap ++ .opening .round opener ::
          (list ++ .closing .round :: (tail ++ .opening .curly owner :: after))) ∧
        gap.all Piece.isGap = true ∧ list.all (!·.isRound) = true ∧ IsTail tail ∧
        rest = shownOf after ∧ ReadsOn (shownOf (gap ++ .opening .round opener ::
          (list ++ .closing .round :: (tail ++ .opening .curly owner :: after)))) rest := by
  obtain ⟨blanks, _, rfl, isBlanks, _, rfl, parameters, _, rfl, unclosed, clause, rfl, isClause⟩ :=
    id signs
  have ends : ((blanks ++ (['('] ++ (parameters ++ ([')'] ++ clause)))) ++
      '{' :: rest).head?.any isPart = false := by
    cases blanks with
    | nil => exact (by decide : isPart '(' = false)
    | cons c blanks =>
      rw [List.all_cons, Bool.and_eq_true, ← classOf_eq_blank] at isBlanks
      simp [isPart, isBlanks.1]
  rcases lexed.exists_name same filled parts blank ends with
    ⟨before, after, rfl, rfl, reads⟩ | ⟨before, sort, text, after, p, q, rfl, quiet, spells, reads⟩
  · have stray (strays : Strays after) :
        ∃ first last, before ++ Piece.leaf .word name :: after = first ++ last ∧
          Misleads name rest last :=
      ⟨before, _, rfl, .word ⟨_, reads.symm, signs⟩ strays⟩
    have tokens : ∀ piece ∈ after, piece.isToken = true :=
      fun piece member => lexed.tokens piece (by simp [member])
    have opens :
        shownOf after = blanks ++ '(' :: (parameters ++ ')' :: (clause ++ '{' :: rest)) := by
      rw [← reads]
      simp
    obtain ⟨gap, piece, inner, q, rfl, isGap, rfl, shows, later⟩ :=
      exists_gap tokens opens isBlanks (by decide)
    obtain ⟨rfl, opener, rfl⟩ :=
      Piece.eq_opening_of_head (b := .round) (tokens piece (by simp)) shows
    rcases exists_list
      (fun piece member => tokens piece (by simp [member])) later.symm unclosed with
      ⟨list, after, rfl, isList, rfl, closes⟩ | strays
    · have lexed' : Lexed ((before ++ .leaf .word name ::
          (gap ++ .opening .round opener :: (list ++ [.closing .round]))) ++ after) := by
        simpa using lexed
      rcases lexed'.exists_tail closes.symm isClause with
        ⟨tail, owner, more, rfl, isTail, rfl⟩ | strays
      · exact .inr ⟨before, gap, opener, list, tail, owner, more, rfl, isGap, isList, isTail, rfl,
          _, reads.symm, signs⟩
      · exact .inl (stray (strays gap list opener isGap isList))
    · exact .inl (stray (strays gap opener isGap))
  · exact .inl ⟨before, _, rfl, .quiet quiet spells ⟨_, reads.symm, signs⟩⟩

theorem cut_sourceOf {left inner right : List Piece} {segment : Segment}
    (start : segment.start = (shownOf left).length)
    (stop : segment.stop = segment.start + (shownOf inner).length) :
    segment.cut (sourceOf (left ++ (inner ++ right))) = sourceOf inner := by
  have length : segment.stop - segment.start = (sourceOf inner).length := by
    rw [stop, Nat.add_sub_cancel_left, length_shownOf]
  rw [Segment.cut, length, start, length_shownOf, sourceOf_append, List.drop_left, sourceOf_append,
    List.take_left]

theorem MethodText.cut_sourceOf {name text : List Char} (found : MethodText name text)
    {left inner last : List Piece} {owner : Owner}
    (shows : text = shownOf (left ++ .opening .curly owner :: (inner ++ .closing .curly :: last)))
    (rest : found.body ++ '}' :: found.after = shownOf (inner ++ .closing .curly :: last))
    (paired : Balanced (shownOf inner)) :
    found.block.cut (sourceOf (left ++ .opening .curly owner ::
      (inner ++ .closing .curly :: last))) = sourceOf inner := by
  have lengths := congrArg List.length (shows.symm.trans found.spells)
  rw [rest, shownOf_append, shownOf_cons] at lengths
  simp only [List.length_append, List.length_cons] at lengths
  have brace : (Piece.opening .curly owner).shown.length = 1 := rfl
  have split : left ++ .opening .curly owner :: (inner ++ .closing .curly :: last) =
      (left ++ [.opening .curly owner]) ++ (inner ++ .closing .curly :: last) := by simp
  rw [split]
  apply Java.cut_sourceOf
  · rw [block, shownOf_append, List.length_append]
    simp only [shownOf_cons, shownOf_nil, List.append_nil]
    omega
  · rw [shownOf_append, shownOf_cons] at rest
    rw [block, found.nested.balanced.eq_of_append paired rest]

/-- A block that an identifier and a list head belongs to a declaration. -/
theorem FirstDeclaration.owner_ne_none {package : Option String} {tree : SyntaxTree} {key : String}
    (declaration : FirstDeclaration package tree key)
    (blocks : blocksHeaded (piecesOf false .type declaration.children) = true) {name : List Char}
    (identifier : IsIdentifier name) {before gap list tail after : List Piece} {opener owner : Owner}
    (isGap : gap.all Piece.isGap = true) (isList : list.all (!·.isRound) = true)
    (isTail : IsTail tail) (braces : declaration.pieces =
      (before ++ .leaf .word name :: (gap ++ .opening .round opener ::
        (list ++ .closing .round :: tail))) ++ .opening .curly owner :: after) :
    owner ≠ .none := by
  rintro rfl
  obtain ⟨left, right, first, rfl, inside⟩ := exists_bracket braces
  obtain ⟨start, rfl⟩ : ∃ start, left = start ++ .leaf .word name ::
      (gap ++ .opening .round opener :: (list ++ .closing .round :: tail)) := by
    cases before with
    | nil => cases first
    | cons piece start => exact ⟨start, (List.cons.inj first).2.symm⟩
  have own : heads? (gap ++ .opening .round opener ::
      (list ++ .closing .round :: (tail ++ .opening .curly .none :: right))) = some .none :=
    heads?_append isGap isList isTail
  rw [inside, List.append_assoc, List.cons_append, List.append_assoc, List.cons_append,
    List.append_assoc, List.cons_append] at blocks
  exact identifier.free (mem_blockWords blocks own)

theorem FirstDeclaration.exists_body {package : Option String} {tree : SyntaxTree} {key : String}
    {type : SourceType} (declaration : FirstDeclaration package tree key)
    (present : (tree.outline package).index.get? key = some type)
    (headed : ∀ method ∈ tree.methodParts, HeadsBlock method.1 method.2)
    (lexed : Lexed (piecesOf false .type declaration.children))
    (blocks : blocksHeaded (piecesOf false .type declaration.children) = true) {name : String}
    (identifier : IsIdentifier name.toList)
    (found : MethodText name.toList (shownOf declaration.pieces)) :
    (∃ method ∈ (type.methods.get? name).getD [],
      method.body = some (String.ofList (strip (found.block.cut tree.text)))) ∨
    ∃ before rest, declaration.pieces = before ++ rest ∧
      Misleads name.toList (found.body ++ '}' :: found.after) rest := by
  obtain ⟨written, gap, signature, headIs, _, _, gapFilled, blanks, signs⟩ := found.headed
  have reads : shownOf declaration.pieces =
      (found.before ++ (found.modifiers ++ (written ++ gap))) ++
        (name.toList ++ (signature ++ '{' :: (found.body ++ '}' :: found.after))) := by
    refine found.spells.trans ?_
    rw [headIs]
    simp
  have blank :
      (found.before ++ (found.modifiers ++ (written ++ gap))).getLast?.any isBlank = true := by
    rw [← List.append_assoc, ← List.append_assoc, List.getLast?_append,
      List.getLast?_eq_some_getLast gapFilled]
    exact List.all_eq_true.mp blanks _ (List.getLast_mem gapFilled)
  have lexedAll := lexed.surround declaration.before declaration.after
  rcases lexedAll.exists_head reads blank identifier.filled identifier.parts signs with
    misleads | ⟨before, gap', opener, list, tail, owner, after, split, isGap, isList,
      isTail, rest, readsOn⟩
  · exact .inr misleads
  have heads : heads? (gap' ++ .opening .round opener ::
      (list ++ .closing .round :: (tail ++ .opening .curly owner :: after))) = some owner :=
    heads?_append isGap isList isTail
  have braces : declaration.pieces =
      (before ++ .leaf .word name.toList :: (gap' ++ .opening .round opener ::
        (list ++ .closing .round :: tail))) ++ .opening .curly owner :: after := by
    rw [pieces, split]
    simp
  cases owner with
  | none =>
    exact (declaration.owner_ne_none blocks identifier isGap isList isTail braces rfl).elim
  | type => exact .inr ⟨before, _, split, .word readsOn (.header heads (.inl rfl))⟩
  | method other =>
    by_cases creates : other = "<init>"
    · exact .inr ⟨before, _, split, .word readsOn (.header heads (.inr (congrArg _ creates)))⟩
    · obtain ⟨method, member, inner, first, front, last, body, left, rfl, ⟨head⟩⟩ :=
        declaration.exists_method present headed creates braces
      have closed : list.foldr Piece.reopen (some 0) = some 0 := foldr_reopen_of_no_round isList
      obtain rfl : name = other := String.toList_inj.mp (head.eq_name isGap closed isTail left)
      by_cases paired : Balanced (shownOf (piecesOf true .none inner))
      · refine .inl ⟨method, member, ?_⟩
        rw [body, declaration.source_eq.trans (congrArg sourceOf braces),
          found.cut_sourceOf (congrArg shownOf braces) rest paired, source_piecesOf]
      · exact .inr ⟨before, _, split, .word readsOn (.block isGap isList isTail paired)⟩

/-- What is asked of a tree. The trees of sources without errors are built like this. -/
structure SyntaxTree.WellFormed (tree : SyntaxTree) : Prop where
  /-- Leaves are tokens, and no word touches another. -/
  lexed : ∀ children ∈ tree.typeParts, Lexed (piecesOf false .type children)
  /-- A method has its name right before the parameters, and its block at the end. -/
  headed : ∀ method ∈ tree.methodParts, HeadsBlock method.1 method.2
  /-- Blocks after lists are those of declarations or of statements. -/
  blocks : ∀ children ∈ tree.typeParts, blocksHeaded (piecesOf false .type children) = true

instance (tree : SyntaxTree) : Decidable tree.WellFormed :=
  decidable_of_iff
    ((∀ children ∈ tree.typeParts, Lexed (piecesOf false .type children)) ∧
      (∀ method ∈ tree.methodParts, HeadsBlock method.1 method.2) ∧
        ∀ children ∈ tree.typeParts, blocksHeaded (piecesOf false .type children) = true)
    ⟨fun ⟨lexed, headed, blocks⟩ => ⟨lexed, headed, blocks⟩,
      fun ⟨lexed, headed, blocks⟩ => ⟨lexed, headed, blocks⟩⟩

instance (name : List Char) : Decidable (IsIdentifier name) :=
  decidable_of_iff (name ≠ [] ∧ name.all isPart = true ∧ name ∉ blockWords)
    ⟨fun ⟨filled, parts, free⟩ => ⟨filled, parts, free⟩,
      fun ⟨filled, parts, free⟩ => ⟨filled, parts, free⟩⟩

/-- What the search finds in the own text of a type is the body of a method that the index
attributes to the type, or is found at an occurrence of the name that misleads. -/
theorem extractBody_agrees {package : Option String} {tree : SyntaxTree}
    (wellFormed : tree.WellFormed) {key : String} {type : SourceType}
    (present : (tree.outline package).index.get? key = some type)
    {name : String} (identifier : IsIdentifier name.toList) :
    ∃ declaration : FirstDeclaration package tree key,
      type.ownText tree.text = .ok (shownOf declaration.pieces) ∧
      ∃ result, extractBody tree.text name.toList (some (shownOf declaration.pieces)) = .ok result ∧
        ∀ text, result = some text →
          (∃ method ∈ (type.methods.get? name).getD [], method.body = some (String.ofList text)) ∨
          ∃ found : MethodText name.toList (shownOf declaration.pieces), found.IsFirst ∧
            text = strip (found.block.cut tree.text) ∧
            ∃ before rest, declaration.pieces = before ++ rest ∧
              Misleads name.toList (found.body ++ '}' :: found.after) rest := by
  obtain ⟨declaration, own⟩ := exists_firstDeclaration present
  have member : declaration.children ∈ tree.typeParts :=
    List.mem_filterMap.mpr ⟨_, declaration.member, rfl⟩
  have aligned : (shownOf declaration.pieces).length = tree.text.length := by
    rw [length_shownOf, declaration.source_eq]
  have named : name.toList.head? ≠ some '<' := by
    intro starts
    have part : isPart '<' = true :=
      List.all_eq_true.mp identifier.parts _ (List.mem_of_mem_head? starts)
    exact absurd part (by decide)
  refine ⟨declaration, own, _, extractBody_aligned named aligned, ?_⟩
  intro text isText
  obtain ⟨segment, searched, rfl⟩ := Option.map_eq_some_iff.mp isText
  obtain ⟨found, isFirst, rfl⟩ := findBody?_eq_some_iff.mp searched
  have bodies := declaration.exists_body present wellFormed.headed (wellFormed.lexed _ member)
    (wellFormed.blocks _ member) identifier found
  exact bodies.imp_right fun misled => ⟨found, isFirst, rfl, misled⟩

namespace SyntaxTree

def ofType (keyword name : String) (members : List SyntaxTree) : SyntaxTree :=
  .node (.type name) [.word keyword, .space, .word name, .space,
    .node .classBody [.group .curly (.space :: (members ++ [.space]))]]

def ofMethod (name : String) (lead : List String) (written : String)
    (clause block : List SyntaxTree) : SyntaxTree :=
  .node (.method name []) (lead.flatMap (fun text => [.word text, .space]) ++
    [.word written, .group .round [], .space] ++ clause ++
    [.group .curly (.space :: (block ++ [.space]))])

def call (name : String) (arguments : List SyntaxTree) : SyntaxTree :=
  .node .other [.word name, .group .round arguments, .mark ";"]

end SyntaxTree

def agreeingTree : SyntaxTree :=
  .ofType "class" "A" [.ofType "class" "B" [.ofMethod "m" ["int"] "m" [] [.call "c" []]], .space,
    .ofMethod "m" ["int"] "m" [.word "throws", .space, .word "E", .space] [.call "b" []]]

def agreeingType : SourceType :=
  { simpleName := "A", binaryName := "A", line := 0, column := 0, start := 0, stop := 66,
    foreign := [⟨10, 38⟩]
    methods := [("m", [⟨"m", [], 0, 39, some "b();"⟩])] }

theorem extractBody_agrees_throws :
    agreeingTree.text = ("class A \x7b class B \x7b int m() \x7b c(); \x7d \x7d " ++
        "int m() throws E \x7b b(); \x7d \x7d").toList ∧
      agreeingTree.WellFormed ∧ (agreeingTree.outline none).index.get? "A" = some agreeingType ∧
      ∃ declaration : FirstDeclaration none agreeingTree "A",
        extractBody agreeingTree.text "m".toList (some (shownOf declaration.pieces)) =
            .ok (some "b();".toList) ∧
          ((∃ method ∈ (agreeingType.methods.get? "m").getD [], method.body = some "b();") ∨
            ∃ found : MethodText "m".toList (shownOf declaration.pieces), found.IsFirst ∧
              "b();".toList = strip (found.block.cut agreeingTree.text) ∧
              ∃ before rest, declaration.pieces = before ++ rest ∧
                Misleads "m".toList (found.body ++ '}' :: found.after) rest) := by
  have wellFormed : agreeingTree.WellFormed := by decide +kernel
  have present : (agreeingTree.outline none).index.get? "A" = some agreeingType := by decide +kernel
  have shown : agreeingType.ownText agreeingTree.text = .ok ("class A \x7b " ++
      "                             int m() throws E \x7b b(); \x7d \x7d").toList := by
    decide +kernel
  have found : extractBody agreeingTree.text "m".toList (some ("class A \x7b " ++
      "                             int m() throws E \x7b b(); \x7d \x7d").toList) =
        .ok (some "b();".toList) := by
    decide +kernel
  obtain ⟨declaration, own, result, extracted, bodies⟩ :=
    extractBody_agrees wellFormed present (show IsIdentifier "m".toList by decide)
  rw [← Except.ok.inj (own.symm.trans shown)] at found
  obtain rfl := Except.ok.inj (extracted.symm.trans found)
  exact ⟨by decide +kernel, wellFormed, present, declaration, found, bodies _ rfl⟩

/-- In the tree of a source with one type, the search finds a text that is the body of no method the
type has under `name`. -/
def FindsOther (tree : SyntaxTree) (source name body : String) : Prop :=
  tree.WellFormed ∧ tree.text = source.toList ∧ IsIdentifier name.toList ∧
    ∃ entry ∈ (tree.outline none).index, entry.2.ownText source.toList = .ok source.toList ∧
      extractBody source.toList name.toList (some source.toList) = .ok (some body.toList) ∧
        ∀ method ∈ (entry.2.methods.get? name).getD [], method.body ≠ some body

instance (tree : SyntaxTree) (source name body : String) :
    Decidable (FindsOther tree source name body) :=
  inferInstanceAs (Decidable (_ ∧ _))

/-- A method in a comment, a brace in a literal, a clause without a block, a parenthesis in a
comment, the list of a statement in an argument, and a constructor. -/
theorem findsOther_misled :
    FindsOther (.ofType "class" "A" [.leaf .comment "/* void m() \x7b x(); \x7d */".toList])
      "class A \x7b /* void m() \x7b x(); \x7d */ \x7d" "m" "x();" ∧
    FindsOther (.ofType "class" "A"
      [.ofMethod "m" ["int"] "m" [] [.call "f" [.leaf .literal "\"\x7d\"".toList]]])
      "class A \x7b int m() \x7b f(\"\x7d\"); \x7d \x7d" "m" "f(\"" ∧
    FindsOther (.ofType "interface" "I"
        [.node (.method "m" []) [.word "void", .space, .word "m", .group .round [], .space,
          .word "throws", .space, .word "E", .mark ";"], .space,
          .ofMethod "k" ["default", "void"] "k" [] [.call "x" []]])
      "interface I \x7b void m() throws E; default void k() \x7b x(); \x7d \x7d" "m" "x();" ∧
    FindsOther (.ofType "class" "A" [.ofMethod "k" ["int"] "k" [] [.word "return", .space,
        .call "m" [.word "a", .space, .leaf .comment "/* ) \x7b */".toList]]])
      "class A \x7b int k() \x7b return m(a /* ) \x7b */); \x7d \x7d" "m" "*/);" ∧
    FindsOther (.ofType "class" "A" [.ofMethod "k" ["int"] "k" [] [.word "return", .space,
        .call "m" [.word "x", .mark "->",
          .group .curly [.word "if", .space, .group .round [.word "x"], .space,
            .group .curly [.call "a" []]]]]])
      "class A \x7b int k() \x7b return m(x->\x7bif (x) \x7ba();\x7d\x7d); \x7d \x7d" "m" "a();" ∧
    FindsOther (.ofType "class" "A" [.ofMethod "<init>" ["public"] "A" [] [.call "x" []]])
      "class A \x7b public A() \x7b x(); \x7d \x7d" "A" "x();" := by
  refine ⟨?_, ?_, ?_, ?_, ?_, ?_⟩ <;> decide +kernel

end CallAtlas.Java
