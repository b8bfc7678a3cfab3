import CallAtlas.Proofs.BlankedSearch
import CallAtlas.Proofs.Outcomes
import Mathlib.Tactic.SplitIfs

/-!
The text of a type alone: which characters of the source it shows, told by their bytes, and how it
comes about by one cut after another.
-/

namespace CallAtlas.Java

open Text

theorem utf8Size_pos (c : Char) : 0 < utf8Size c := by
  unfold utf8Size encodeCode
  split_ifs <;> exact Nat.succ_pos _

theorem length_encodeUtf8_cons (c : Char) (rest : List Char) :
    (encodeUtf8 (c :: rest)).length = utf8Size c + (encodeUtf8 rest).length := by
  rw [encodeUtf8, List.flatMap_cons, List.length_append]
  rfl

theorem length_encodeUtf8_append (s t : List Char) :
    (encodeUtf8 (s ++ t)).length = (encodeUtf8 s).length + (encodeUtf8 t).length := by
  rw [encodeUtf8, List.flatMap_append, List.length_append]
  rfl

def firstByte (source : List Char) (i : Nat) : Nat := (encodeUtf8 (source.take i)).length

def IsBoundary (source : List Char) (byte : Nat) : Prop :=
  ∃ i ≤ source.length, firstByte source i = byte

/-- A stretch of bytes that takes each character as a whole or leaves it. -/
structure Segment.OnCharacters (source : List Char) (segment : Segment) : Prop where
  ordered : segment.start ≤ segment.stop
  start : IsBoundary source segment.start
  stop : IsBoundary source segment.stop

theorem charsWithin_firstByte {source : List Char} {i : Nat} (within : i ≤ source.length)
    (before : Nat) :
    charsWithin before (firstByte source i) source = .ok i := by
  rw [firstByte]
  induction source generalizing i before with
  | nil =>
    cases Nat.le_zero.mp within
    rfl
  | cons c rest ih =>
    cases i with
    | zero => rfl
    | succ i =>
      have size := utf8Size_pos c
      rw [charsWithin, List.take_succ_cons, length_encodeUtf8_cons, if_neg (by omega),
        if_pos (Nat.le_add_right _ _), Nat.add_sub_cancel_left, ih (Nat.le_of_succ_le_succ within)]
      rfl

theorem charsWithin_le {before bytes count : Nat} {source : List Char}
    (counted : charsWithin before bytes source = .ok count) : count ≤ source.length := by
  induction source generalizing before bytes count with
  | nil =>
    cases counted
    exact Nat.le_refl 0
  | cons c rest ih =>
    rw [charsWithin] at counted
    split_ifs at counted
    · cases counted
      exact Nat.zero_le _
    · cases more : charsWithin (before + utf8Size c) (bytes - utf8Size c) rest with
      | error e => cases (more ▸ counted : Except.map (· + 1) (.error e) = .ok count)
      | ok n =>
        cases (more ▸ counted : Except.map (· + 1) (.ok n) = .ok count)
        exact Nat.succ_le_succ (ih more)

theorem firstByte_mono (source : List Char) {i j : Nat} (le : i ≤ j) :
    firstByte source i ≤ firstByte source j := by
  obtain ⟨rest, longer⟩ : source.take i <+: source.take j := List.take_prefix_take_left le
  rw [firstByte, firstByte, ← longer, length_encodeUtf8_append]
  exact Nat.le_add_right _ _

theorem firstByte_lt_iff {source : List Char} {i j : Nat} (first : i ≤ source.length)
    (second : j ≤ source.length) :
    firstByte source i < firstByte source j ↔ i < j := by
  constructor
  · intro before
    refine Nat.lt_of_not_le fun reversed => ?_
    exact Nat.not_lt_of_le (firstByte_mono source reversed) before
  · intro before
    refine Nat.lt_of_le_of_ne (firstByte_mono source (Nat.le_of_lt before)) fun same => ?_
    have counted := charsWithin_firstByte first 0
    rw [same, charsWithin_firstByte second] at counted
    exact Nat.ne_of_gt before (Except.ok.inj counted)

structure Segment.Within (part : Segment) (text : List Char) : Prop where
  ordered : part.start ≤ part.stop
  inside : part.stop ≤ text.length

theorem Segment.OnCharacters.charSegment {source : List Char} {segment : Segment}
    (whole : segment.OnCharacters source) :
    ∃ chars, charSegment source segment = .ok chars ∧ chars.Within source ∧
      ∀ i < source.length, chars.holds i = segment.holds (firstByte source i) := by
  obtain ⟨ordered, ⟨i, startWithin, startIs⟩, j, stopWithin, stopIs⟩ := whole
  refine ⟨⟨i, j⟩, ?_, ⟨?_, stopWithin⟩, ?_⟩
  · rw [Java.charSegment, ← startIs, ← stopIs, charsWithin_firstByte startWithin,
      charsWithin_firstByte stopWithin]
    rfl
  · have crossed := firstByte_lt_iff stopWithin startWithin
    simp only
    omega
  · intro k inside
    have first := firstByte_lt_iff (Nat.le_of_lt inside) startWithin
    have second := firstByte_lt_iff (Nat.le_of_lt inside) stopWithin
    rw [Bool.eq_iff_iff, Segment.holds_iff, Segment.holds_iff]
    simp only
    omega

theorem charSegments_onCharacters {source : List Char} {segments : List Segment}
    (whole : ∀ segment ∈ segments, segment.OnCharacters source) :
    ∃ parts, segments.mapM (charSegment source) = .ok parts ∧ (∀ part ∈ parts, part.Within source) ∧
      ∀ i < source.length, parts.any (·.holds i) = segments.any (·.holds (firstByte source i)) := by
  induction segments with
  | nil => exact ⟨[], rfl, List.forall_mem_nil _, fun _ _ => rfl⟩
  | cons segment rest ih =>
    rw [List.forall_mem_cons] at whole
    obtain ⟨part, cut, within, held⟩ := whole.1.charSegment
    obtain ⟨parts, cuts, withins, helds⟩ := ih whole.2
    refine ⟨part :: parts, ?_, List.forall_mem_cons.mpr ⟨within, withins⟩, ?_⟩
    · rw [List.mapM_cons, cut, cuts]
      rfl
    · intro i inside
      rw [List.any_cons, List.any_cons, held i inside, helds i inside]

section Cuts

variable {part : Segment} {text : List Char}

theorem Segment.Within.length_blank (within : part.Within text) :
    (part.blank text).length = text.length := by
  obtain ⟨ordered, inside⟩ := within
  simp only [Segment.blank, List.length_append, List.length_take, List.length_replicate,
    List.length_drop]
  omega

theorem Segment.Within.length_keep (within : part.Within text) :
    (part.keep text).length = text.length := by
  obtain ⟨ordered, inside⟩ := within
  simp only [Segment.keep, Segment.cut, List.length_append, List.length_take, List.length_replicate,
    List.length_drop]
  omega

theorem Segment.Within.getElem?_blank (within : part.Within text) (i : Nat) :
    (part.blank text)[i]? = text[i]?.map fun c => if part.holds i then ' ' else c := by
  obtain ⟨ordered, within⟩ := within
  have front : (text.take part.start).length = part.start := by
    rw [List.length_take]
    omega
  by_cases before : i < part.start
  · have out : part.holds i = false := Segment.holds_eq_false_iff.mpr (.inl before)
    rw [Segment.blank, List.append_assoc, List.getElem?_append_left (by rwa [front]),
      List.getElem?_take_of_lt before, out]
    simp
  · rw [Segment.blank, List.append_assoc, List.getElem?_append_right (by omega), front]
    by_cases inside : i < part.stop
    · have here : i < text.length := by omega
      have held : part.holds i = true := Segment.holds_iff.mpr ⟨Nat.le_of_not_lt before, inside⟩
      rw [List.getElem?_append_left (by rw [List.length_replicate]; omega),
        List.getElem?_replicate_of_lt (by omega), held,
        List.getElem?_eq_getElem here]
      simp
    · have out : part.holds i = false :=
        Segment.holds_eq_false_iff.mpr (.inr (Nat.le_of_not_lt inside))
      have place : part.stop + (i - part.start - (part.stop - part.start)) = i := by omega
      rw [List.getElem?_append_right (by rw [List.length_replicate]; omega), List.length_replicate,
        List.getElem?_drop, place, out]
      simp

theorem Segment.Within.getElem?_keep (within : part.Within text) (i : Nat) :
    (part.keep text)[i]? = text[i]?.map fun c => if part.holds i then c else ' ' := by
  obtain ⟨ordered, within⟩ := within
  have middle : (part.cut text).length = part.stop - part.start := by
    rw [Segment.cut, List.length_take, List.length_drop]
    omega
  by_cases before : i < part.start
  · have here : i < text.length := by omega
    have out : part.holds i = false := Segment.holds_eq_false_iff.mpr (.inl before)
    rw [Segment.keep, List.append_assoc, List.getElem?_append_left (by rwa [List.length_replicate]),
      List.getElem?_replicate_of_lt before, out, List.getElem?_eq_getElem here]
    simp
  · rw [Segment.keep, List.append_assoc,
      List.getElem?_append_right (by rw [List.length_replicate]; omega), List.length_replicate]
    by_cases inside : i < part.stop
    · have held : part.holds i = true := Segment.holds_iff.mpr ⟨Nat.le_of_not_lt before, inside⟩
      have place : part.start + (i - part.start) = i := by omega
      rw [List.getElem?_append_left (by omega), Segment.getElem?_cut,
        if_pos (by omega), place, held]
      simp
    · have out : part.holds i = false :=
        Segment.holds_eq_false_iff.mpr (.inr (Nat.le_of_not_lt inside))
      rw [List.getElem?_append_right (by omega), middle, List.getElem?_replicate, out]
      by_cases here : i < text.length
      · rw [if_pos (by omega), List.getElem?_eq_getElem here]
        simp
      · rw [if_neg (by omega), List.getElem?_eq_none (Nat.le_of_not_lt here)]
        rfl

end Cuts

theorem foldl_blank_eq_blanked {parts : List Segment} {text : List Char}
    (within : ∀ part ∈ parts, part.Within text) :
    parts.foldl (fun text part => part.blank text) text = blanked text parts := by
  induction parts generalizing text with
  | nil => exact (blanked_nil text).symm
  | cons part rest ih =>
    rw [List.forall_mem_cons] at within
    have later : ∀ other ∈ rest, other.Within (part.blank text) := fun other member =>
      ⟨(within.2 other member).ordered, by rw [within.1.length_blank]; exact
        (within.2 other member).inside⟩
    rw [List.foldl_cons, ih later]
    apply List.ext_getElem?
    intro i
    rw [getElem?_blanked, getElem?_blanked, within.1.getElem?_blank, Option.map_map, List.any_cons]
    congr 1
    funext c
    cases part.holds i <;> simp

namespace SourceType

variable {type : SourceType} {source : List Char} {whole : Segment} {parts : List Segment}

theorem ownText_of_parts (wholeCut : charSegment source ⟨type.start, type.stop⟩ = .ok whole)
    (partsCut : type.foreign.mapM (charSegment source) = .ok parts) :
    type.ownText source =
    .ok (parts.foldl (fun text part => part.blank text) (whole.keep source)) := by
  refine bind_eq_ok.mpr ⟨whole, wholeCut, ?_⟩
  have pairs := mapM_eq_ok.mp partsCut
  clear partsCut
  generalize type.foreign = segments, whole.keep source = text at *
  induction pairs generalizing text with
  | nil => rfl
  | cons first _ ih =>
    rw [List.foldlM_cons, first]
    exact ih _

theorem getElem?_foldl_keep (own : whole.Within source)
    (foreign : ∀ part ∈ parts, part.Within source) (i : Nat) :
    (parts.foldl (fun text part => part.blank text) (whole.keep source))[i]? =
      source[i]?.map fun c => if whole.holds i && !parts.any (·.holds i) then c else ' ' := by
  have within : ∀ part ∈ parts, part.Within (whole.keep source) := fun part member =>
    ⟨(foreign part member).ordered, by rw [own.length_keep]; exact (foreign part member).inside⟩
  rw [foldl_blank_eq_blanked within, getElem?_blanked, own.getElem?_keep, Option.map_map]
  congr 1
  funext c
  cases whole.holds i <;> cases parts.any (·.holds i) <;> rfl

theorem length_foldl_keep (own : whole.Within source)
    (foreign : ∀ part ∈ parts, part.Within source) :
    (parts.foldl (fun text part => part.blank text) (whole.keep source)).length =
    source.length := by
  have within : ∀ part ∈ parts, part.Within (whole.keep source) := fun part member =>
    ⟨(foreign part member).ordered, by rw [own.length_keep]; exact (foreign part member).inside⟩
  rw [foldl_blank_eq_blanked within, length_blanked, own.length_keep]

end SourceType

def SourceType.Shows (type : SourceType) (source : List Char) (i : Nat) : Prop :=
  (type.start ≤ firstByte source i ∧ firstByte source i < type.stop) ∧
    ∀ segment ∈ type.foreign,
      ¬ (segment.start ≤ firstByte source i ∧ firstByte source i < segment.stop)

instance (type : SourceType) (source : List Char) (i : Nat) : Decidable (type.Shows source i) :=
  inferInstanceAs (Decidable (_ ∧ _))

theorem SourceType.exists_parts {type : SourceType} {source : List Char}
    (own : Segment.OnCharacters source ⟨type.start, type.stop⟩)
    (foreign : ∀ segment ∈ type.foreign, segment.OnCharacters source) :
    ∃ whole parts, charSegment source ⟨type.start, type.stop⟩ = .ok whole ∧
      type.foreign.mapM (charSegment source) = .ok parts ∧ whole.Within source ∧
      (∀ part ∈ parts, part.Within source) ∧
        ∀ i < source.length, (whole.holds i && !parts.any (·.holds i)) =
          (Segment.holds ⟨type.start, type.stop⟩ (firstByte source i) &&
            !type.foreign.any (·.holds (firstByte source i))) := by
  obtain ⟨whole, wholeCut, wholeWithin, wholeHolds⟩ := own.charSegment
  obtain ⟨parts, partsCut, partsWithin, partsHold⟩ := charSegments_onCharacters foreign
  refine ⟨whole, parts, wholeCut, partsCut, wholeWithin, partsWithin, ?_⟩
  intro i inside
  rw [wholeHolds i inside, partsHold i inside]

/-- The text of a type is as long as the source. It has the characters that begin within the type
and in nothing foreign to it, each at its place, and spaces for the others. Cutting the type out and
blanking one foreign part after another gives the same text. -/
theorem ownText_shows (type : SourceType) (source : List Char)
    (own : Segment.OnCharacters source ⟨type.start, type.stop⟩)
    (foreign : ∀ segment ∈ type.foreign, segment.OnCharacters source) :
    ∃ text, type.ownText source = .ok text ∧ text.length = source.length ∧
      (∀ i c, source[i]? = some c → text[i]? = some (if type.Shows source i then c else ' ')) ∧
      ∃ whole parts, charSegment source ⟨type.start, type.stop⟩ = .ok whole ∧
        type.foreign.mapM (charSegment source) = .ok parts ∧
          text = parts.foldl (fun text part => part.blank text) (whole.keep source) := by
  obtain ⟨whole, parts, wholeCut, partsCut, wholeWithin, partsWithin, holds⟩ :=
    SourceType.exists_parts own foreign
  refine ⟨_, type.ownText_of_parts wholeCut partsCut,
    SourceType.length_foldl_keep wholeWithin partsWithin, ?_, whole, parts,
    wholeCut, partsCut, rfl⟩
  intro i c here
  rw [SourceType.getElem?_foldl_keep wholeWithin partsWithin, here, Option.map_some,
    holds i (List.getElem?_eq_some_iff.mp here).1]
  exact congrArg some (if_congr (by simp [SourceType.Shows, Segment.holds]) rfl rfl)

/-- Characters of one to four bytes, and foreign parts that overlap, that leave the type and that
lie outside it. -/
def overlapSource : List Char := "aé€𝄞 bé€𝄞 c".toList

def overlapType : SourceType :=
  { simpleName := "M"
    binaryName := "M"
    line := 0
    column := 0
    start := 1
    stop := 21
    foreign := [⟨3, 10⟩, ⟨6, 11⟩, ⟨17, 22⟩, ⟨0, 1⟩] }

theorem ownText_shows_overlap :
    Segment.OnCharacters overlapSource ⟨overlapType.start, overlapType.stop⟩ ∧
      (∀ segment ∈ overlapType.foreign, segment.OnCharacters overlapSource) ∧
        ∃ text, overlapType.ownText overlapSource = .ok text ∧ text.length = 11 ∧
        text[0]? = some ' ' ∧ text[1]? = some 'é' ∧ text[3]? = some ' ' ∧ text[7]? = some '€' ∧
        text[8]? = some ' ' ∧ text[10]? = some ' ' := by
  have own : Segment.OnCharacters overlapSource ⟨overlapType.start, overlapType.stop⟩ :=
    ⟨by decide, ⟨1, by decide, by decide⟩, 9, by decide, by decide⟩
  have foreign : ∀ segment ∈ overlapType.foreign, segment.OnCharacters overlapSource := by
    simp only [overlapType, List.forall_mem_cons]
    refine ⟨⟨by decide, ⟨2, by decide, by decide⟩, 4, by decide, by decide⟩,
      ⟨by decide, ⟨3, by decide, by decide⟩, 5, by decide, by decide⟩,
      ⟨by decide, ⟨8, by decide, by decide⟩, 10, by decide, by decide⟩,
      ⟨by decide, ⟨0, by decide, by decide⟩, 1, by decide, by decide⟩, List.forall_mem_nil _⟩
  obtain ⟨text, cut, length, shown, _⟩ := ownText_shows overlapType overlapSource own foreign
  exact ⟨own, foreign, text, cut, length, shown 0 'a' (by decide), shown 1 'é' (by decide),
    shown 3 '𝄞' (by decide), shown 7 '€' (by decide), shown 8 '𝄞' (by decide),
    shown 10 'c' (by decide)⟩

end CallAtlas.Java
