import CallAtlas.Proofs.BodySearch
import CallAtlas.Proofs.MethodBlocks

/-!
Pieces that are tokens of the language. Where their text reads like a name, a bracket or a clause,
there is a word, a bracket or a clause among the pieces, unless it is read in a comment or a
literal.
-/

namespace CallAtlas.Java

open Text

inductive CharClass where
  | blank
  | bracket
  | mark
  | part
  deriving DecidableEq, Repr

/-- What a character can be in a source: white space, a bracket, a mark, or else part of a word. -/
def classOf (c : Char) : CharClass :=
  if isBlank c then .blank
  else if ['(', ')', '[', ']', '{', '}'].contains c then .bracket
  else if "!\"#%&'*+,-./:;<=>?@\\^`|~".toList.contains c then .mark
  else .part

def isPart (c : Char) : Bool := classOf c = .part

theorem classOf_eq_blank {c : Char} : classOf c = .blank ↔ isBlank c = true := by
  unfold classOf
  cases isBlank c <;> simp
  split <;> try split
  all_goals simp

theorem classOf_opening (bracket : Bracket) : classOf bracket.opening = .bracket := by
  cases bracket <;> decide

theorem classOf_closing (bracket : Bracket) : classOf bracket.closing = .bracket := by
  cases bracket <;> decide

def Piece.charClass : Piece → CharClass
  | leaf .blank _ | foreign _ => .blank
  | leaf .word _ => .part
  | leaf .mark _ | leaf .comment _ | leaf .literal _ => .mark
  | opening _ _ | closing _ => .bracket

def Piece.isQuiet : Piece → Bool
  | leaf .comment _ | leaf .literal _ => true
  | _ => false

def Piece.isWord : Piece → Bool
  | leaf .word _ => true
  | _ => false

/-- A leaf is not empty, and has the characters of its sort; of comments and literals this is asked
of the first. -/
def Piece.isToken : Piece → Bool
  | leaf sort text => text.head?.any (classOf · = (leaf sort text).charClass) &&
      ((leaf sort text).isQuiet || text.all (classOf · = (leaf sort text).charClass))
  | _ => true

/-- Whether no word begins right after part of one; `last` is the character before the pieces. -/
def wordsApart (last : Option Char) : List Piece → Bool
  | [] => true
  | piece :: rest =>
    !(piece.isWord && last.any isPart) && wordsApart (piece.shown.getLast?.or last) rest

structure Lexed (pieces : List Piece) : Prop where
  tokens : ∀ piece ∈ pieces, piece.isToken = true
  apart : wordsApart none pieces = true

instance (pieces : List Piece) : Decidable (Lexed pieces) :=
  decidable_of_iff ((∀ piece ∈ pieces, piece.isToken = true) ∧ wordsApart none pieces = true)
    ⟨fun both => ⟨both.1, both.2⟩, fun lexed => ⟨lexed.tokens, lexed.apart⟩⟩

namespace Piece

variable {piece : Piece} {c : Char} {rest : List Char}

theorem class_of_mem (token : piece.isToken = true) (member : c ∈ piece.shown) :
    classOf c = piece.charClass ∨ piece.isQuiet = true := by
  cases piece with
  | leaf sort text =>
    rw [isToken, Bool.and_eq_true, Bool.or_eq_true, List.all_eq_true] at token
    exact (token.2.symm.imp_left fun all => of_decide_eq_true (all c member))
  | foreign text =>
    rw [shown] at member
    rw [List.eq_of_mem_replicate member]
    exact .inl (by decide : classOf ' ' = .blank)
  | opening bracket owner =>
    cases List.mem_singleton.mp member
    exact .inl (classOf_opening bracket)
  | closing bracket =>
    cases List.mem_singleton.mp member
    exact .inl (classOf_closing bracket)

theorem class_of_head (token : piece.isToken = true) (shows : piece.shown = c :: rest) :
    classOf c = piece.charClass := by
  cases piece with
  | leaf sort text =>
    have text_eq : text = c :: rest := shows
    rw [isToken, Bool.and_eq_true, text_eq] at token
    rw [text_eq]
    exact of_decide_eq_true token.1
  | foreign text =>
    exact (class_of_mem token (by rw [shows]; exact List.mem_cons_self)).resolve_right
      Bool.false_ne_true
  | opening | closing =>
    exact (class_of_mem token (by rw [shows]; exact List.mem_cons_self)).resolve_right
      Bool.false_ne_true

theorem isGap_of_class (blank : piece.charClass = .blank) : piece.isGap = true := by
  cases piece with
  | leaf sort text => cases sort <;> first | rfl | cases blank
  | foreign => rfl
  | opening | closing => cases blank

theorem eq_word_of_class (part : piece.charClass = .part) : ∃ text, piece = .leaf .word text := by
  cases piece with
  | leaf sort text =>
    cases sort with
    | word => exact ⟨text, rfl⟩
    | blank | mark | comment | literal => cases part
  | foreign | opening | closing => cases part

theorem eq_word_of_part (token : piece.isToken = true) (loud : ¬piece.isQuiet = true)
    (member : c ∈ piece.shown) (part : isPart c = true) :
    ∃ text, piece = .leaf .word text ∧ ∀ d ∈ text, isPart d = true := by
  have same := (class_of_mem token member).resolve_right loud
  obtain ⟨text, rfl⟩ := eq_word_of_class (same.symm.trans (of_decide_eq_true part))
  exact ⟨text, rfl, fun d inside =>
    decide_eq_true ((class_of_mem token inside).resolve_right loud)⟩

theorem isGap_of_blanks (token : piece.isToken = true)
    (blanks : ∀ c ∈ piece.shown, isBlank c = true) :
    piece.isGap = true := by
  cases shows : piece.shown with
  | nil =>
    cases piece with
    | leaf sort text =>
      cases (shows : text = [])
      cases token
    | foreign => rfl
    | opening | closing => cases shows
  | cons c rest =>
    apply isGap_of_class
    rw [← class_of_head token shows, classOf_eq_blank]
    exact blanks c (by rw [shows]; exact List.mem_cons_self)

theorem isBlank_of_gap (token : piece.isToken = true) (gap : piece.isGap = true)
    (member : c ∈ piece.shown) :
    isBlank c = true := by
  rw [← classOf_eq_blank]
  cases piece with
  | leaf sort text =>
    cases sort with
    | blank => exact (class_of_mem token member).resolve_right Bool.false_ne_true
    | word | mark | comment | literal => cases gap
  | foreign => exact (class_of_mem token member).resolve_right Bool.false_ne_true
  | opening | closing => cases gap

theorem eq_bracket {p q : List Char} (token : piece.isToken = true)
    (shows : piece.shown = p ++ c :: q) (bracket : classOf c = .bracket) :
    (p = [] ∧ q = [] ∧
      ((∃ b owner, piece = .opening b owner ∧ b.opening = c) ∨ ∃ b, piece = .closing b ∧
        b.closing = c)) ∨ piece.isQuiet = true := by
  refine or_iff_not_imp_right.mpr fun loud => ?_
  have same : classOf c = piece.charClass :=
    (class_of_mem token (by rw [shows]; simp)).resolve_right loud
  rw [bracket] at same
  have single {d : Char} (spells : [d] = p ++ c :: q) : p = [] ∧ q = [] ∧ d = c := by
    rw [eq_comm, List.append_eq_singleton_iff] at spells
    simpa [and_comm, eq_comm] using spells
  cases piece with
  | leaf sort text => cases sort <;> cases same
  | foreign => cases same
  | opening b owner =>
    obtain ⟨first, last, is⟩ := single shows
    exact ⟨first, last, .inl ⟨b, owner, rfl, is⟩⟩
  | closing b =>
    obtain ⟨first, last, is⟩ := single shows
    exact ⟨first, last, .inr ⟨b, rfl, is⟩⟩

theorem eq_opening_of_head {b : Bracket} (token : piece.isToken = true)
    (shows : piece.shown = b.opening :: rest) :
    rest = [] ∧ ∃ owner, piece = .opening b owner := by
  have head := class_of_head token shows
  rw [classOf_opening] at head
  rcases eq_bracket (p := []) token shows (classOf_opening b) with
    ⟨_, rfl, ⟨other, owner, rfl, is⟩ | ⟨other, rfl, is⟩⟩ | quiet
  · refine ⟨rfl, owner, ?_⟩
    cases b <;> cases other <;> first | rfl | cases is
  · cases b <;> cases other <;> cases is
  · cases piece with
    | leaf sort text => cases sort <;> cases head
    | foreign | opening | closing => cases quiet

end Piece

theorem eq_nil_of_blank_last {front word : List Char}
    (blank : (front ++ word).getLast?.any isBlank = true)
    (parts : ∀ c ∈ word, isPart c = true) : word = [] := by
  rcases List.eq_nil_or_concat word with none | ⟨start, d, rfl⟩
  · exact none
  · have part := parts d (by simp)
    rw [List.concat_eq_append, ← List.append_assoc, List.getLast?_concat, Option.any_some,
      ← classOf_eq_blank] at blank
    cases blank.symm.trans (of_decide_eq_true part)

theorem eq_nil_of_head_apart {word rest : List Char}
    (ends : (word ++ rest).head?.any isPart = false)
    (parts : ∀ c ∈ word, isPart c = true) : word = [] := by
  cases word with
  | nil => rfl
  | cons d word => exact (Bool.false_ne_true (ends.symm.trans (parts d List.mem_cons_self))).elim

theorem exists_piece {pieces : List Piece} {u v : List Char} {c : Char}
    (same : shownOf pieces = u ++ c :: v) :
    ∃ before piece after p q, pieces = before ++ piece :: after ∧ piece.shown = p ++ c :: q ∧
      u = shownOf before ++ p ∧ v = q ++ shownOf after := by
  induction pieces generalizing u with
  | nil => cases u <;> cases same
  | cons piece rest ih =>
    rw [shownOf_cons] at same
    rcases append_eq_append_cons same with ⟨more, here, rfl⟩ | ⟨more, rfl, later⟩
    · exact ⟨[], piece, rest, u, more, rfl, here, rfl, rfl⟩
    · obtain ⟨before, found, after, p, q, rfl, shows, rfl, rfl⟩ := ih later
      exact ⟨piece :: before, found, after, p, q, rfl, shows, by simp, rfl⟩

theorem wordsApart_append {last : Option Char} {front rest : List Piece}
    (apart : wordsApart last (front ++ rest) = true) :
    wordsApart ((shownOf front).getLast?.or last) rest = true := by
  induction front generalizing last with
  | nil => exact apart
  | cons piece front ih =>
    rw [List.cons_append, wordsApart, Bool.and_eq_true] at apart
    have later := ih apart.2
    rwa [shownOf_cons, List.getLast?_append, Option.or_assoc]

theorem wordsApart_congr {first second : Option Char} (same : first.any isPart = second.any isPart)
    (pieces : List Piece) :
    wordsApart first pieces = wordsApart second pieces := by
  induction pieces generalizing first second with
  | nil => rfl
  | cons piece rest ih =>
    have later : (piece.shown.getLast?.or first).any isPart =
        (piece.shown.getLast?.or second).any isPart := by
      cases piece.shown.getLast? <;> simp [same]
    rw [wordsApart, wordsApart, same, ih later]

theorem wordsApart_concat {last : Option Char} {pieces : List Piece}
    (apart : wordsApart last pieces = true) (text : List Char) :
    wordsApart last (pieces ++ [.foreign text]) = true := by
  induction pieces generalizing last with
  | nil => rfl
  | cons piece rest ih =>
    rw [wordsApart, Bool.and_eq_true] at apart
    rw [List.cons_append, wordsApart, apart.1, ih apart.2]
    rfl

namespace Lexed

variable {pieces before after : List Piece} {piece : Piece}

theorem surround (lexed : Lexed pieces) (first last : List Char) :
    Lexed (.foreign first :: (pieces ++ [.foreign last])) where
  tokens := by
    rw [List.forall_mem_cons, List.forall_mem_append, List.forall_mem_singleton]
    exact ⟨rfl, lexed.tokens, rfl⟩
  apart := by
    have blank : ((Piece.foreign first).shown.getLast?.or none).any isPart = none.any isPart := by
      rw [Option.or_none, Piece.shown, List.getLast?_replicate]
      split
      · rfl
      · exact (by decide : isPart ' ' = false)
    rw [wordsApart, wordsApart_congr blank, wordsApart_concat lexed.apart]
    rfl

theorem token (lexed : Lexed (before ++ piece :: after)) : piece.isToken = true :=
  lexed.tokens piece (by simp)

theorem not_isPart_next (lexed : Lexed (before ++ piece :: after))
    (last : piece.shown.getLast?.any isPart = true)
    {d : Char} {rest : List Char} (next : shownOf after = d :: rest) : isPart d = false := by
  rw [← Bool.not_eq_true]
  intro part
  obtain ⟨between, word, later, p, q, rfl, shows, none, _⟩ := exists_piece (u := []) next
  obtain ⟨empty, rfl⟩ := List.append_eq_nil_iff.mp none.symm
  have token : word.isToken = true := lexed.tokens word (by simp)
  obtain ⟨text, rfl⟩ :=
    Piece.eq_word_of_class ((Piece.class_of_head token shows).symm.trans (of_decide_eq_true part))
  have apart := lexed.apart
  rw [← List.cons_append, ← List.append_assoc] at apart
  have apart := wordsApart_append apart
  rw [wordsApart, shownOf_append, shownOf_cons, empty, List.append_nil,
    List.getLast?_append] at apart
  obtain ⟨c, isLast, isPart⟩ := (Option.any_eq_true _ _).mp last
  simp [isLast, isPart, Piece.isWord] at apart

theorem prefix_of_parts (lexed : Lexed (before ++ piece :: after)) {p s text rest : List Char}
    (shows : piece.shown = p ++ text) (filled : text ≠ []) (parts : s.all isPart = true)
    (reads : text ++ shownOf after = s ++ rest) : s <+: text := by
  rcases List.append_eq_append_iff.mp reads with ⟨_ | ⟨d, more⟩, rfl, tail⟩ | ⟨more, rfl, _⟩
  · exact (List.append_nil text).symm ▸ List.prefix_refl text
  · rw [List.all_append, List.all_cons, Bool.and_eq_true, Bool.and_eq_true] at parts
    have last : piece.shown.getLast?.any isPart = true := by
      rw [shows, List.getLast?_append, List.getLast?_eq_some_getLast filled]
      exact List.all_eq_true.mp parts.1 _ (List.getLast_mem filled)
    have next := lexed.not_isPart_next last (tail.trans (List.cons_append))
    exact (Bool.false_ne_true (next.symm.trans parts.2.1)).elim
  · exact List.prefix_append _ _

/-- A name after white space is a word, unless it is read in a comment or a literal. -/
theorem exists_name (lexed : Lexed pieces) {front rest name : List Char}
    (same : shownOf pieces = front ++ (name ++ rest))
    (filled : name ≠ []) (parts : name.all isPart = true)
    (blank : front.getLast?.any isBlank = true) (ends : rest.head?.any isPart = false) :
    (∃ before after, pieces = before ++ .leaf .word name :: after ∧ front = shownOf before ∧
      rest = shownOf after) ∨
      ∃ before sort text after p q, pieces = before ++ .leaf sort text :: after ∧
        (Piece.leaf sort text).isQuiet = true ∧ text = p ++ (name ++ q) ∧
        rest = q ++ shownOf after := by
  obtain ⟨c, tail, rfl⟩ := List.exists_cons_of_ne_nil filled
  obtain ⟨before, piece, after, p, q, rfl, shows, rfl, later⟩ := exists_piece same
  have token := lexed.token
  have part : isPart c = true := by
    rw [List.all_cons, Bool.and_eq_true] at parts
    exact parts.1
  have inside : c :: tail <+: c :: q :=
    lexed.prefix_of_parts shows (List.cons_ne_nil c q) parts (congrArg (c :: ·) later.symm)
  obtain ⟨more, spells⟩ := inside
  have tails : q = tail ++ more := (List.cons.inj spells).2.symm
  subst tails
  have rests : rest = more ++ shownOf after := by
    rw [List.append_assoc] at later
    exact List.append_cancel_left later
  subst rests
  by_cases quiet : piece.isQuiet = true
  · cases piece with
    | leaf sort text =>
      exact .inr ⟨before, sort, text, after, p, more, rfl,
        quiet, by simpa [Piece.shown, Piece.source] using shows, rfl⟩
    | foreign | opening | closing => cases quiet
  · obtain ⟨text, rfl, parts⟩ :=
      Piece.eq_word_of_part (c := c) token quiet (by rw [shows]; simp) part
    have text_eq : text = p ++ c :: (tail ++ more) := shows
    -- The blank before the name and the end after it leave no room for more of the word.
    have first : p = [] :=
      eq_nil_of_blank_last blank fun d inside => parts d (by rw [text_eq]; simp [inside])
    have last : more = [] :=
      eq_nil_of_head_apart ends fun d inside => parts d (by rw [text_eq]; simp [inside])
    subst first last
    refine .inl ⟨before, after, ?_, List.append_nil _, rfl⟩
    rw [text_eq, List.append_nil]
    rfl

end Lexed

section Tokens

variable {pieces : List Piece} (tokens : ∀ piece ∈ pieces, piece.isToken = true)

include tokens

theorem exists_gap {blanks rest : List Char} {c : Char}
    (same : shownOf pieces = blanks ++ c :: rest)
    (blank : blanks.all isBlank = true) (visible : isBlank c = false) :
    ∃ gap piece after q, pieces = gap ++ piece :: after ∧ gap.all Piece.isGap = true ∧
      blanks = shownOf gap ∧ piece.shown = c :: q ∧ rest = q ++ shownOf after := by
  obtain ⟨gap, piece, after, p, q, rfl, shows, rfl, rfl⟩ := exists_piece same
  have token : piece.isToken = true := tokens piece (by simp)
  rw [List.all_append, Bool.and_eq_true, List.all_eq_true, List.all_eq_true] at blank
  have none : p = [] := by
    cases p with
    | nil => rfl
    | cons d p =>
      have isGap : piece.isGap = true := by
        apply Piece.isGap_of_class
        rw [← Piece.class_of_head token shows, classOf_eq_blank]
        exact blank.2 d List.mem_cons_self
      have blankHere := Piece.isBlank_of_gap (c := c) token isGap (by rw [shows]; simp)
      exact (Bool.false_ne_true (visible.symm.trans blankHere)).elim
  subst none
  refine ⟨gap, piece, after, q, rfl, ?_, List.append_nil _, shows, rfl⟩
  rw [List.all_eq_true]
  intro other member
  apply Piece.isGap_of_blanks (tokens other (List.mem_append_left _ member))
  intro d inside
  exact blank.1 d (List.mem_flatMap.mpr ⟨other, member, inside⟩)

theorem exists_bracket {front rest : List Char} {c : Char}
    (same : shownOf pieces = front ++ c :: rest) (bracket : classOf c = .bracket) :
    ∃ before piece after, pieces = before ++ piece :: after ∧ shownOf before <+: front ∧
      ((front = shownOf before ∧ rest = shownOf after ∧
        ((∃ b owner, piece = .opening b owner ∧ b.opening = c) ∨ ∃ b, piece = .closing b ∧
          b.closing = c)) ∨ piece.isQuiet = true ∧ c ∈ piece.shown) := by
  obtain ⟨before, piece, after, p, q, rfl, shows, rfl, rfl⟩ := exists_piece same
  refine ⟨before, piece, after, rfl, List.prefix_append _ _, ?_⟩
  rcases Piece.eq_bracket (tokens piece (by simp)) shows bracket with ⟨rfl, rfl, kind⟩ | quiet
  · exact .inl ⟨List.append_nil _, rfl, kind⟩
  · exact .inr ⟨quiet, by rw [shows]; simp⟩

end Tokens

end CallAtlas.Java
