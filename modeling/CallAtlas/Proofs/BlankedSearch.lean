import CallAtlas.Proofs.BodySearch
import CallAtlas.Proofs.OutlineAddresses

/-!
A body found in a copy of the source in which some parts are blank. If the braces of these parts
pair up, the body is a whole block of the source, however deep the blank parts nest.
-/

namespace CallAtlas.Java

open Text

theorem Segment.getElem?_cut (segment : Segment) (source : List Char) (i : Nat) :
    (segment.cut source)[i]? = if i < segment.stop - segment.start then source[segment.start + i]?
      else none := by
  rw [Segment.cut, List.getElem?_take, List.getElem?_drop]

theorem Segment.cut_congr {segment : Segment} {source other : List Char}
    (same : ∀ i, segment.start ≤ i → i < segment.stop → source[i]? = other[i]?) :
    segment.cut source = segment.cut other := by
  apply List.ext_getElem?
  intro i
  rw [Segment.getElem?_cut, Segment.getElem?_cut]
  split
  case isTrue inside => exact same _ (Nat.le_add_right _ _) (by omega)
  case isFalse => rfl

theorem Segment.cut_split {low middle high : Nat} (first : low ≤ middle) (second : middle ≤ high)
    (source : List Char) :
    Segment.cut ⟨low, high⟩ source = Segment.cut ⟨low, middle⟩ source ++
    Segment.cut ⟨middle, high⟩ source := by
  have length : high - low = (middle - low) + (high - middle) := by omega
  have start : low + (middle - low) = middle := by omega
  simp only [Segment.cut]
  rw [length, List.take_add, List.drop_drop, start]

theorem Segment.holds_eq_false_iff {segment : Segment} {i : Nat} :
    segment.holds i = false ↔ i < segment.start ∨ segment.stop ≤ i := by
  rw [← Bool.not_eq_true, Segment.holds_iff]
  omega

/-- A part of a source between a brace and the one that closes it. -/
structure IsBlock (source : List Char) (block : Segment) : Prop where
  positive : 0 < block.start
  ordered : block.start ≤ block.stop
  opened : source[block.start - 1]? = some '{'
  closed : source[block.stop]? = some '}'
  balanced : Balanced (block.cut source)

namespace IsBlock

variable {source : List Char} {block : Segment}

theorem drop_eq (isBlock : IsBlock source block) :
    source.drop block.start = block.cut source ++ '}' :: source.drop (block.stop + 1) := by
  obtain ⟨inside, brace⟩ := List.getElem?_eq_some_iff.mp isBlock.closed
  have stop : block.start + (block.stop - block.start) = block.stop := by
    have := isBlock.ordered
    omega
  calc source.drop block.start
      = block.cut source ++ (source.drop block.start).drop (block.stop - block.start) :=
        (List.take_append_drop _ _).symm
    _ = block.cut source ++ '}' :: source.drop (block.stop + 1) := by
      rw [List.drop_drop, stop, List.drop_eq_getElem_cons inside, brace]

theorem length_cut (isBlock : IsBlock source block) :
    (block.cut source).length = block.stop - block.start := by
  obtain ⟨inside, _⟩ := List.getElem?_eq_some_iff.mp isBlock.closed
  rw [Segment.cut, List.length_take, List.length_drop]
  omega

theorem stop_eq {other : Segment} (isBlock : IsBlock source block) (isOther : IsBlock source other)
    (together : block.start = other.start) : block.stop = other.stop := by
  have tails := isBlock.drop_eq.symm.trans ((congrArg source.drop together).trans isOther.drop_eq)
  have lengths := congrArg List.length (isBlock.balanced.eq_of_append isOther.balanced tails)
  have first := isBlock.ordered
  have second := isOther.ordered
  rw [isBlock.length_cut, isOther.length_cut] at lengths
  omega

end IsBlock

theorem getElem?_between {text front rest : List Char} {c : Char} {i : Nat}
    (spells : text = front ++ c :: rest) (place : i = front.length) : text[i]? = some c := by
  rw [spells, place, List.getElem?_append_right (Nat.le_refl _), Nat.sub_self]
  rfl

theorem MethodText.isBlock {name text : List Char} (method : MethodText name text) :
    IsBlock text method.block where
  positive := Nat.succ_pos _
  ordered := Nat.le_add_right _ _
  opened := by
    have spells : text = (method.before ++ (method.modifiers ++ method.head)) ++
        '{' :: (method.body ++ '}' :: method.after) :=
      method.spells.trans (by simp)
    apply getElem?_between spells
    simp only [block, List.length_append]
    omega
  closed := by
    have spells :
        text = (method.before ++ (method.modifiers ++ (method.head ++ '{' :: method.body))) ++
        '}' :: method.after :=
      method.spells.trans (by simp)
    apply getElem?_between spells
    simp only [block, List.length_append, List.length_cons]
    omega
  balanced := method.cut_block ▸ method.nested.balanced

def blanked (source : List Char) (parts : List Segment) : List Char :=
  source.zipIdx.map fun (c, i) => if parts.any (·.holds i) then ' ' else c

section Blanked

variable {source : List Char} {part : Segment} {parts : List Segment} {i : Nat}

theorem getElem?_blanked (source : List Char) (parts : List Segment) (i : Nat) :
    (blanked source parts)[i]? =
      source[i]?.map fun c => if parts.any (·.holds i) then ' ' else c := by
  rw [blanked, List.getElem?_map, List.getElem?_zipIdx, Option.map_map, Nat.zero_add]
  rfl

theorem blanked_nil (source : List Char) : blanked source [] = source := by
  apply List.ext_getElem?
  intro i
  rw [getElem?_blanked]
  cases source[i]? <;> rfl

theorem length_blanked (source : List Char) (parts : List Segment) :
    (blanked source parts).length = source.length := by
  rw [blanked, List.length_map, List.length_zipIdx]

theorem getElem?_blanked_of_outside (outside : ∀ part ∈ parts, part.holds i = false) :
    (blanked source parts)[i]? = source[i]? := by
  have none : parts.any (·.holds i) = false := by simpa using outside
  rw [getElem?_blanked, none]
  cases source[i]? <;> rfl

theorem getElem?_blanked_cons (outside : part.holds i = false) :
    (blanked source (part :: parts))[i]? = (blanked source parts)[i]? := by
  rw [getElem?_blanked, getElem?_blanked, List.any_cons, outside, Bool.false_or]

theorem eq_space_of_inside {c : Char} (member : part ∈ parts) (inside : part.holds i = true)
    (here : (blanked source parts)[i]? = some c) : c = ' ' := by
  have blank : parts.any (·.holds i) = true := List.any_eq_true.mpr ⟨part, member, inside⟩
  rw [getElem?_blanked, blank] at here
  obtain ⟨_, _, rfl⟩ := Option.map_eq_some_iff.mp here
  rfl

theorem outside_of_visible {c : Char} (here : (blanked source parts)[i]? = some c)
    (visible : c ≠ ' ') :
    ∀ part ∈ parts, part.holds i = false := by
  intro part member
  rw [← Bool.not_eq_true]
  intro inside
  exact visible (eq_space_of_inside member inside here)

theorem balanced_blank (member : part ∈ parts) : Balanced (part.cut (blanked source parts)) := by
  apply Balanced.of_no_braces
  intro c inCut
  obtain ⟨i, here⟩ := List.mem_iff_getElem?.mp inCut
  rw [Segment.getElem?_cut] at here
  split at here
  case isFalse => cases here
  case isTrue inside =>
    have inPart : part.holds (part.start + i) = true := Segment.holds_iff.mpr (by omega)
    rw [eq_space_of_inside member inPart here]
    decide

end Blanked

/-- Parts of a source that do not overlap and whose braces pair up. -/
structure Blankable (source : List Char) (parts : List Segment) : Prop where
  balanced : ∀ part ∈ parts, Balanced (part.cut source)
  apart : parts.Pairwise fun first second => ∀ i, first.holds i = true → second.holds i = false

/-- Neither brace of a block is in a part. -/
def Segment.Spares (block part : Segment) : Prop :=
  part.holds (block.start - 1) = false ∧ part.holds block.stop = false

theorem Segment.Spares.whole {block part : Segment} (spares : block.Spares part)
    (positive : 0 < block.start) :
    (block.start ≤ part.start ∧ part.stop ≤ block.stop) ∨ part.stop ≤ block.start ∨
    block.stop ≤ part.start := by
  obtain ⟨first, second⟩ := spares
  rw [Segment.holds_eq_false_iff] at first second
  omega

theorem levelAfter_swap {s t : List Char} (first : Balanced s) (second : Balanced t) (level : Nat)
    (front back : List Char) :
    levelAfter level (front ++ (s ++ back)) = levelAfter level (front ++ (t ++ back)) := by
  have same (level : Nat) : levelAfter level (s ++ back) = levelAfter level (t ++ back) := by
    rw [levelAfter_append, levelAfter_append, first.levelAfter, second.levelAfter]
  rw [levelAfter_append, levelAfter_append level front]
  exact congrArg _ (funext same)

theorem levelAfter_blanked_cons {source : List Char} {block part : Segment} {parts : List Segment}
    (balanced : Balanced (part.cut source))
    (apart : ∀ other ∈ parts, ∀ i, part.holds i = true → other.holds i = false)
    (positive : 0 < block.start) (spares : block.Spares part) (level : Nat) :
    levelAfter level (block.cut (blanked source (part :: parts))) =
    levelAfter level (block.cut (blanked source parts)) := by
  obtain ⟨low, high⟩ := block
  obtain ⟨first, last⟩ := part
  by_cases inside : low ≤ first ∧ first ≤ last ∧ last ≤ high
  · obtain ⟨lower, ordered, upper⟩ := inside
    have outside {i : Nat} (apart : i < first ∨ last ≤ i) :
        (blanked source (⟨first, last⟩ :: parts))[i]? = (blanked source parts)[i]? :=
      getElem?_blanked_cons (Segment.holds_eq_false_iff.mpr apart)
    have before : Segment.cut ⟨low, first⟩ (blanked source (⟨first, last⟩ :: parts)) =
        Segment.cut ⟨low, first⟩ (blanked source parts) :=
          Segment.cut_congr fun i _ below => outside (.inl below)
    have after : Segment.cut ⟨last, high⟩ (blanked source (⟨first, last⟩ :: parts)) =
        Segment.cut ⟨last, high⟩ (blanked source parts) :=
          Segment.cut_congr fun i above _ => outside (.inr above)
    have shown : Segment.cut ⟨first, last⟩ (blanked source parts) =
        Segment.cut ⟨first, last⟩ source :=
      Segment.cut_congr fun i above below =>
        getElem?_blanked_of_outside fun other member =>
          apart other member i (Segment.holds_iff.mpr ⟨above, below⟩)
    have hidden : Balanced (Segment.cut ⟨first, last⟩ (blanked source (⟨first, last⟩ :: parts))) :=
      balanced_blank List.mem_cons_self
    have pieces (text : List Char) : Segment.cut ⟨low, high⟩ text =
        Segment.cut ⟨low, first⟩ text ++
        (Segment.cut ⟨first, last⟩ text ++ Segment.cut ⟨last, high⟩ text) := by
      rw [Segment.cut_split lower (Nat.le_trans ordered upper), Segment.cut_split ordered upper]
    rw [pieces, pieces, before, after, shown]
    exact levelAfter_swap hidden balanced level _ _
  · obtain ⟨left, right⟩ := spares
    rw [Segment.holds_eq_false_iff] at left right
    rw [Segment.cut_congr]
    intro i above below
    apply getElem?_blanked_cons
    rw [Segment.holds_eq_false_iff]
    simp only at *
    omega

theorem Blankable.levelAfter_blanked {source : List Char} {block : Segment} {parts : List Segment}
    (blankable : Blankable source parts) (positive : 0 < block.start)
    (spares : ∀ part ∈ parts, block.Spares part) (level : Nat) :
    levelAfter level (block.cut (blanked source parts)) = levelAfter level (block.cut source) := by
  obtain ⟨balanced, apart⟩ := blankable
  induction parts with
  | nil => rw [blanked_nil]
  | cons part parts ih =>
    obtain ⟨here, later⟩ := List.pairwise_cons.mp apart
    rw [List.forall_mem_cons] at balanced spares
    rw [levelAfter_blanked_cons balanced.1 here positive spares.1, ih spares.2 balanced.2 later]

theorem Blankable.isBlock {source : List Char} {block : Segment} {parts : List Segment}
    (blankable : Blankable source parts) (isBlock : IsBlock (blanked source parts) block) :
    IsBlock source block ∧ ∀ part ∈ parts, block.Spares part := by
  have opened := outside_of_visible isBlock.opened (by decide)
  have closed := outside_of_visible isBlock.closed (by decide)
  have spares : ∀ part ∈ parts, block.Spares part :=
    fun part member => ⟨opened part member, closed part member⟩
  refine ⟨⟨isBlock.positive, isBlock.ordered, ?_, ?_, ?_⟩, spares⟩
  · rw [← getElem?_blanked_of_outside opened, isBlock.opened]
  · rw [← getElem?_blanked_of_outside closed, isBlock.closed]
  · rw [balanced_iff_levelAfter, ← blankable.levelAfter_blanked isBlock.positive spares,
      ← balanced_iff_levelAfter]
    exact isBlock.balanced

/-- What is found in a source with blank parts is cut from the source as a whole block, which takes
each of the parts or leaves it. -/
theorem extractBody_blanked (source name : List Char) {parts : List Segment}
    (blankable : Blankable source parts) :
    ∃ result, extractBody source name (some (blanked source parts)) = .ok result ∧
      (result.isSome = true ↔ name.head? ≠ some '<' ∧
        Nonempty (MethodText name (blanked source parts))) ∧
      ∀ text, result = some text → ∃ first : MethodText name (blanked source parts), first.IsFirst ∧
        text = strip (first.block.cut source) ∧ IsBlock source first.block ∧
        (∀ other, IsBlock source other → other.start = first.block.start →
          other.stop = first.block.stop) ∧ ∀ part ∈ parts, first.block.Spares part ∧
          ((first.block.start ≤ part.start ∧ part.stop ≤ first.block.stop) ∨
          part.stop ≤ first.block.start ∨ first.block.stop ≤ part.start) := by
  by_cases creation : name.head? = some '<'
  · refine ⟨none, by rw [extractBody, if_pos creation], ?_, fun text found => ?_⟩
    · exact ⟨fun isSome => (Bool.false_ne_true isSome).elim, fun named => (named.1 creation).elim⟩
    · cases found
  · refine ⟨_, extractBody_aligned creation (length_blanked source parts), ?_, ?_⟩
    · rw [Option.isSome_map, isSome_findBody?_iff]
      exact (and_iff_right creation).symm
    · intro text found
      obtain ⟨segment, searched, rfl⟩ := Option.map_eq_some_iff.mp found
      obtain ⟨first, isFirst, rfl⟩ := findBody?_eq_some_iff.mp searched
      obtain ⟨isBlock, spares⟩ := blankable.isBlock first.isBlock
      refine ⟨first, isFirst, rfl, isBlock,
        fun other isOther together => isOther.stop_eq isBlock together, ?_⟩
      intro part member
      exact ⟨spares part member, (spares part member).whole isBlock.positive⟩

/-- A type within the type and a class body within a method, both with methods of their own. -/
def layeredSource : List Char :=
  "class A \x7b class B \x7b int f() \x7b \x7d \x7d int f() \x7b new C() \x7b int g() \x7b\x7b\x7b\x7d\x7d\x7d \x7d; \x7d \x7d".toList

def layeredBody : List Char := "new C() \x7b int g() \x7b\x7b\x7b\x7d\x7d\x7d \x7d;".toList

def layeredParts : List Segment := [⟨10, 33⟩, ⟨52, 70⟩]

theorem extractBody_blanked_layered :
    Blankable layeredSource layeredParts ∧
      extractBody layeredSource "f".toList (some (blanked layeredSource layeredParts)) =
      .ok (some layeredBody) ∧ ∃ block, IsBlock layeredSource block ∧
      strip (block.cut layeredSource) = layeredBody ∧
        ∀ part ∈ layeredParts, block.Spares part ∧
          ((block.start ≤ part.start ∧ part.stop ≤ block.stop) ∨
          part.stop ≤ block.start ∨ block.stop ≤ part.start) := by
  have blankable : Blankable layeredSource layeredParts := by
    refine ⟨by decide +kernel, ?_⟩
    rw [layeredParts, List.pairwise_pair]
    intro i first
    rw [Segment.holds_iff] at first
    rw [Segment.holds_eq_false_iff]
    simp only at *
    omega
  have found : extractBody layeredSource "f".toList (some (blanked layeredSource layeredParts)) =
      .ok (some layeredBody) := by
    decide +kernel
  obtain ⟨result, extracted, _, bodies⟩ := extractBody_blanked layeredSource "f".toList blankable
  rw [found] at extracted
  obtain ⟨first, _, text, isBlock, _, whole⟩ := bodies _ (Except.ok.inj extracted).symm
  exact ⟨blankable, found, first.block, isBlock, text.symm, whole⟩

end CallAtlas.Java
