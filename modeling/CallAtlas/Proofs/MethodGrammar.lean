import CallAtlas.Proofs.BraceNesting

/-!
The surface form of methods as a grammar. Methods that begin at one place of a text have their body
at one place, however the text before it is read.
-/

namespace CallAtlas

namespace Text

theorem CharRange.not_contains_of_apart {r s : CharRange} {code : Nat}
    (apart : r.last < s.first ∨ s.last < r.first)
    (inside : r.contains code = true) : s.contains code = false := by
  simp only [contains, Bool.and_eq_true, decide_eq_true_eq] at inside
  simp only [contains, Bool.and_eq_false_iff, decide_eq_false_iff_not]
  omega

theorem blankRanges_apart : ∀ r ∈ blankRanges, ∀ s ∈ wordRanges, r.last < s.first ∨
    s.last < r.first := by
  decide +kernel

theorem toNat_of_blank {c : Char} (blank : isBlank c = true) (ascii : c.toNat < 0x80) :
    c.toNat ≤ 32 := by
  obtain ⟨r, listed, inside⟩ := List.any_eq_true.mp blank
  have early : ∀ r ∈ blankRanges, r.last ≤ 32 ∨ 0x80 ≤ r.first := by decide
  have place := early r listed
  simp only [CharRange.contains, Bool.and_eq_true, decide_eq_true_eq] at inside
  omega

theorem toNat_of_isAlphanum {c : Char} (word : c.isAlphanum = true) : 32 < c.toNat := by
  have none : ∀ n < 33, (Char.ofNat n).isAlphanum = false := by decide
  refine Nat.lt_of_not_le fun low => ?_
  have here := none c.toNat (by omega)
  rw [Char.ofNat_toNat] at here
  exact Bool.false_ne_true (here.symm.trans word)

theorem isWordChar_of_blank {c : Char} (blank : isBlank c = true) : isWordChar c = false := by
  rw [isWordChar]
  split
  · rename_i ascii
    have low := toNat_of_blank blank ascii
    rw [← Bool.not_eq_true, Bool.or_eq_true]
    rintro (word | line)
    · have := toNat_of_isAlphanum word
      omega
    · rw [eq_of_beq line] at low
      exact absurd low (by decide)
  · obtain ⟨r, listed, inside⟩ := List.any_eq_true.mp blank
    apply List.any_eq_false.mpr
    intro s other
    rw [CharRange.not_contains_of_apart (blankRanges_apart r listed s other) inside]
    exact Bool.false_ne_true

end Text

namespace Java

open Text

theorem isTypeChar_of_blank {c : Char} (blank : isBlank c = true) : isTypeChar c = false := by
  have marks : ['<', '>', '[', ']', ',', '.', '?'].all (fun mark => !isBlank mark) =
      true := by decide
  rw [isTypeChar, isWordChar_of_blank blank, Bool.false_or, ← Bool.not_eq_true]
  intro listed
  have visible : (!isBlank c) = true :=
    List.all_eq_true.mp marks c (List.contains_iff_mem.mp listed)
  rw [blank] at visible
  exact Bool.false_ne_true visible

theorem modifierWords_edges : ∀ word ∈ modifierWords,
    word.head?.any isWordChar = true ∧ word.getLast?.any isWordChar = true := by
  decide

theorem modifierWords_apart : ∀ word ∈ modifierWords, ∀ other ∈ modifierWords, word <+: other →
    word = other := by
  decide

def IsClause (text : List Char) : Prop :=
  ∃ gap clause, text = gap ++ clause ∧ gap.all isBlank = true ∧
    (clause = [] ∨ ∃ thrown, clause = "throws".toList ++ thrown ∧ '{' ∉ thrown)

def IsParameters (text : List Char) : Prop :=
  ∃ parameters closed, text = parameters ++ closed ∧ ')' ∉ parameters ∧
    ∃ clause, closed = [')'] ++ clause ∧ IsClause clause

def IsSignature (text : List Char) : Prop :=
  ∃ gap opened, text = gap ++ opened ∧ gap.all isBlank = true ∧
    ∃ parameters, opened = ['('] ++ parameters ∧ IsParameters parameters

def IsHead (name head : List Char) : Prop :=
  ∃ type gap signature, head = type ++ (gap ++ (name ++ signature)) ∧ type ≠ [] ∧
    type.all isTypeChar = true ∧ gap ≠ [] ∧ gap.all isBlank = true ∧ IsSignature signature

inductive Modifies (before : List Char) : (piece after : List Char) → Prop where
  | word {piece after : List Char} (listed : piece ∈ modifierWords)
      (front : before.getLast?.any isWordChar = false)
      (back : after.head?.any isWordChar = false) : Modifies before piece after
  | blank {c : Char} {after : List Char} (blank : isBlank c = true) : Modifies before [c] after

inductive Modifiers : (before run after : List Char) → Prop where
  | one {before piece after : List Char} (modifies : Modifies before piece after) :
      Modifiers before piece after
  | more {before piece run after : List Char} (modifies : Modifies before piece (run ++ after))
      (rest : Modifiers (before ++ piece) run after) : Modifiers before (piece ++ run) after

/-- A method called `name` in a text. The braces of its body nest at most two deep. -/
structure MethodText (name text : List Char) where
  before : List Char
  modifiers : List Char
  head : List Char
  body : List Char
  after : List Char
  spells : text = before ++ (modifiers ++ (head ++ '{' :: (body ++ '}' :: after)))
  modified : Modifiers before modifiers (head ++ '{' :: (body ++ '}' :: after))
  headed : IsHead name head
  nested : Nests 2 body

namespace MethodText

variable {name text : List Char}

def start (method : MethodText name text) : Nat := method.before.length

def block (method : MethodText name text) : Segment :=
  let opened := method.before.length + method.modifiers.length + method.head.length + 1
  ⟨opened, opened + method.body.length⟩

theorem cut_block (method : MethodText name text) : method.block.cut text = method.body := by
  obtain ⟨before, modifiers, head, body, after, rfl, _, _, _⟩ := method
  have parts : before ++ (modifiers ++ (head ++ '{' :: (body ++ '}' :: after))) =
      (before ++ (modifiers ++ (head ++ ['{']))) ++ (body ++ '}' :: after) := by simp
  have opened : before.length + modifiers.length + head.length + 1 =
      (before ++ (modifiers ++ (head ++ ['{']))).length := by
    simp only [List.length_append, List.length_singleton]
    omega
  simp only [block, Segment.cut]
  rw [Nat.add_sub_cancel_left, opened, parts, List.drop_left, List.take_left]

end MethodText

theorem eq_of_first {c : Char} {s t u v : List Char} (notLeft : c ∉ s) (notRight : c ∉ t)
    (same : s ++ c :: u = t ++ c :: v) : s = t ∧ u = v := by
  rcases List.append_eq_append_iff.mp same with ⟨more, longer, rest⟩ | ⟨more, longer, rest⟩
  · cases more with
    | nil => exact ⟨by rw [longer, List.append_nil], (List.cons.inj rest).2⟩
    | cons d more =>
      obtain ⟨rfl, _⟩ := List.cons.inj rest
      exact (notRight (longer ▸ by simp)).elim
  · cases more with
    | nil => exact ⟨by rw [longer, List.append_nil], (List.cons.inj rest).2.symm⟩
    | cons d more =>
      obtain ⟨rfl, _⟩ := List.cons.inj rest
      exact (notLeft (longer ▸ by simp)).elim

theorem notMem_of_all {test : Char → Bool} {c : Char} {s : List Char} (all : s.all test = true)
    (fails : test c = false) :
    c ∉ s := by
  intro member
  exact Bool.false_ne_true (fails.symm.trans (List.all_eq_true.mp all c member))

theorem Modifiers.no_parenthesis {before run after : List Char}
    (modifiers : Modifiers before run after) : '(' ∉ run := by
  have piece {before piece after : List Char} (modifies : Modifies before piece after) :
      '(' ∉ piece := by
    cases modifies with
    | word listed _ _ =>
      have none : ∀ word ∈ modifierWords, '(' ∉ word := by decide
      exact none _ listed
    | @blank c _ blank =>
      have blanks : [c].all isBlank = true := by simpa using blank
      exact notMem_of_all blanks (by decide)
  induction modifiers with
  | one modifies => exact piece modifies
  | more modifies _ ih =>
    rw [List.mem_append]
    rintro (here | later)
    · exact piece modifies here
    · exact ih later

theorem IsClause.no_brace {clause : List Char} (isClause : IsClause clause) : '{' ∉ clause := by
  obtain ⟨gap, thrown, rfl, blanks, form⟩ := isClause
  rw [List.mem_append]
  rintro (here | later)
  · exact notMem_of_all blanks (by decide) here
  · rcases form with rfl | ⟨types, rfl, none⟩
    · cases later
    · rcases List.mem_append.mp later with word | rest
      · exact absurd word (by decide)
      · exact none rest

/-- After a name there is one way to read the parameters: they begin at the first parenthesis that
is not part of the name. -/
theorem eq_after_name {name front front' gap gap' rest rest' : List Char} (plain : '(' ∉ front)
    (plain' : '(' ∉ front') (blanks : gap.all isBlank = true) (blanks' : gap'.all isBlank = true)
    (same : front ++ (name ++ (gap ++ '(' :: rest)) = front' ++ (name ++ (gap' ++ '(' :: rest'))) :
    rest = rest' := by
  have noParenthesis : '(' ∉ gap := notMem_of_all blanks (by decide)
  have noParenthesis' : '(' ∉ gap' := notMem_of_all blanks' (by decide)
  by_cases inside : '(' ∈ name
  · -- The name holds a parenthesis itself: its first one fixes where the name stands.
    obtain ⟨first, second, rfl, fresh⟩ := List.eq_append_cons_of_mem inside
    have parts : (front ++ first) ++ '(' :: (second ++ (gap ++ '(' :: rest)) =
        (front' ++ first) ++ '(' :: (second ++ (gap' ++ '(' :: rest')) := by simpa using same
    have tails := (eq_of_first (by simp [plain, fresh]) (by simp [plain', fresh]) parts).2
    exact (eq_of_first noParenthesis noParenthesis' (List.append_cancel_left tails)).2
  · have parts : (front ++ (name ++ gap)) ++ '(' :: rest = (front' ++ (name ++ gap')) ++ '(' ::
        rest' := by simpa using same
    exact (eq_of_first (by simp [plain, inside, noParenthesis])
      (by simp [plain', inside, noParenthesis']) parts).2

theorem eq_after_head
    {name before before' lead lead' head head' after after' rest rest' : List Char}
    (modified : Modifiers before lead after) (modified' : Modifiers before' lead' after')
    (headed : IsHead name head) (headed' : IsHead name head')
    (same : lead ++ (head ++ '{' :: rest) = lead' ++ (head' ++ '{' :: rest')) : rest = rest' := by
  obtain ⟨type, space, _, rfl, _, typed, _, spaced, gap, _, rfl, blanks, _, rfl, parameters, _, rfl,
    list, clause, rfl, isClause⟩ := headed
  obtain ⟨type', space', _, rfl, _, typed', _, spaced', gap', _, rfl, blanks', _, rfl, parameters',
    _, rfl, list', clause', rfl, isClause'⟩ := headed'
  have plain : '(' ∉ lead ++ (type ++ space) := by
    simp [modified.no_parenthesis, notMem_of_all typed (c := '(') (by decide),
      notMem_of_all spaced (c := '(') (by decide)]
  have plain' : '(' ∉ lead' ++ (type' ++ space') := by
    simp [modified'.no_parenthesis, notMem_of_all typed' (c := '(') (by decide),
      notMem_of_all spaced' (c := '(') (by decide)]
  have opened : parameters ++ ')' :: (clause ++ '{' :: rest) =
      parameters' ++ ')' :: (clause' ++ '{' :: rest') :=
    eq_after_name plain plain' blanks blanks' (by simpa using same)
  exact (eq_of_first isClause.no_brace isClause'.no_brace (eq_of_first list list' opened).2).2

theorem MethodText.block_eq {name text : List Char} (first second : MethodText name text)
    (together : first.start = second.start) : first.block = second.block := by
  have whole := first.spells.symm.trans second.spells
  obtain ⟨_, rest⟩ := List.append_inj whole together
  have inner := eq_after_head first.modified second.modified first.headed second.headed rest
  have bodies := first.nested.balanced.eq_of_append second.nested.balanced inner
  have lengths := congrArg List.length rest
  have inners := congrArg List.length inner
  simp only [List.length_append, List.length_cons] at lengths inners
  rw [start, start] at together
  simp only [block, Segment.mk.injEq, bodies]
  omega

end Java

end CallAtlas
