import CallAtlas.Proofs.ClassFileLayout
import Mathlib.Tactic.IntervalCases
import Mathlib.Tactic.SplitIfs

/-! Reading the text of class files gives back the code units that were written. -/

namespace CallAtlas.ClassFile.ModifiedUtf8

open Text

theorem toNat_toUInt8 {n : Nat} (small : n < 256) : n.toUInt8.toNat = n := by
  simp [Nat.mod_eq_of_lt small]

theorem continuation_cons {count low high acc seen n : Nat} (small : n < 256) (above : low ≤ n)
    (below : n ≤ high) (rest : List UInt8) :
    continuation (count + 1) low high acc seen (n.toUInt8 :: rest) =
      continuation count 0x80 0xBF (acc * 0x40 + (n - 0x80)) (seen + 1) rest := by
  rw [continuation, toNat_toUInt8 small, if_pos ⟨above, below⟩]

theorem lead?_two {h : Nat} (above : 2 ≤ h) (below : h < 32) :
    lead? true (0xC0 + h) = some ⟨1, 0x80, 0xBF, h⟩ := by
  interval_cases h <;> rfl

theorem lead?_three {h : Nat} (bound : h < 16) :
    lead? true (0xE0 + h) = some ⟨2, if h = 0 then 0xA0 else 0x80, 0xBF, h⟩ := by
  interval_cases h <;> rfl

theorem lead?_four {h : Nat} (bound : h ≤ 4) :
    lead? true (0xF0 + h) =
    some ⟨3, if h = 0 then 0x90 else 0x80, if h = 4 then 0x8F else 0xBF, h⟩ := by
  interval_cases h <;> rfl

theorem nextCode?_encodeCode {code : Nat} (bound : code < 0x110000) (rest : List UInt8) :
    nextCode? (encodeCode code ++ rest) = some (code, rest) := by
  unfold encodeCode
  split_ifs with one two three
  · have lead : lead? true code.toUInt8.toNat = some ⟨0, 0x80, 0xBF, code⟩ := by
      rw [toNat_toUInt8 (by omega), lead?, if_pos one]
    simp only [List.cons_append, nextCode?, lead]
    rfl
  · have lead : lead? true (0xC0 + code / 0x40).toUInt8.toNat =
        some ⟨1, 0x80, 0xBF, code / 0x40⟩ := by
      rw [toNat_toUInt8 (by omega), lead?_two (by omega) (by omega)]
    simp only [List.cons_append, List.nil_append, nextCode?, lead]
    rw [continuation_cons (by omega) (by omega) (by omega)]
    simp only [continuation, ↓reduceIte, Option.some.injEq, Prod.mk.injEq, and_true]
    omega
  · have lead : lead? true (0xE0 + code / 0x1000).toUInt8.toNat =
        some ⟨2, if code / 0x1000 = 0 then 0xA0 else 0x80, 0xBF, code / 0x1000⟩ := by
      rw [toNat_toUInt8 (by omega), lead?_three (by omega)]
    simp only [List.cons_append, List.nil_append, nextCode?, lead]
    rw [continuation_cons (by omega) (by split_ifs <;> omega) (by omega),
      continuation_cons (by omega) (by omega) (by omega)]
    simp only [continuation, ↓reduceIte, Option.some.injEq, Prod.mk.injEq, and_true]
    omega
  · have lead : lead? true (0xF0 + code / 0x40000).toUInt8.toNat =
        some ⟨3, if code / 0x40000 = 0 then 0x90
          else 0x80, if code / 0x40000 = 4 then 0x8F else 0xBF,
          code / 0x40000⟩ := by
      rw [toNat_toUInt8 (by omega), lead?_four (by omega)]
    simp only [List.cons_append, List.nil_append, nextCode?, lead]
    rw [continuation_cons (by omega) (by split_ifs <;> omega) (by split_ifs <;> omega),
      continuation_cons (by omega) (by omega) (by omega),
      continuation_cons (by omega) (by omega) (by omega)]
    simp only [continuation, ↓reduceIte, Option.some.injEq, Prod.mk.injEq, and_true]
    omega

theorem encodeCode_ne_nil (code : Nat) : encodeCode code ≠ [] := by
  unfold encodeCode
  split_ifs <;> simp

theorem codesUpTo_encode (codes : List Nat) (bounds : ∀ code ∈ codes, code < 0x110000) (fuel : Nat)
    (enough : codes.length ≤ fuel) : codesUpTo fuel (codes.flatMap encodeCode) = some codes := by
  induction codes generalizing fuel with
  | nil => cases fuel <;> rfl
  | cons code codes ih =>
    obtain ⟨fuel, rfl⟩ : ∃ n, fuel = n + 1 := ⟨fuel - 1, by simp at enough; omega⟩
    have next := nextCode?_encodeCode (bounds code List.mem_cons_self) (codes.flatMap encodeCode)
    have later :=
      ih (fun c member => bounds c (List.mem_cons_of_mem code member)) fuel (by simpa using enough)
    obtain ⟨b, tail, shape⟩ := List.exists_cons_of_ne_nil (encodeCode_ne_nil code)
    rw [shape, List.cons_append] at next
    rw [List.flatMap_cons, shape, List.cons_append, codesUpTo, next]
    simp [later]

theorem length_le_flatMap_encode (codes : List Nat) :
    codes.length ≤ (codes.flatMap encodeCode).length := by
  induction codes with
  | nil => simp
  | cons code codes ih =>
    have positive := List.length_pos_iff.mpr (encodeCode_ne_nil code)
    simp only [List.flatMap_cons, List.length_append, List.length_cons]
    omega

theorem codes?_encode (codes : List Nat) (bounds : ∀ code ∈ codes, code < 0x110000) :
    codes? (codes.flatMap encodeCode) = some codes :=
  codesUpTo_encode codes bounds _ (length_le_flatMap_encode codes)

theorem unpackNul_cons {b : UInt8} (other : b ≠ 0xC0) (rest : List UInt8) :
    unpackNul (b :: rest) = b :: unpackNul rest := by
  rw [unpackNul]
  intro _ eq
  exact (other eq).elim

theorem unpackNul_append {bytes : List UInt8} (others : 0xC0 ∉ bytes) (rest : List UInt8) :
    unpackNul (bytes ++ rest) = bytes ++ unpackNul rest := by
  induction bytes with
  | nil => rfl
  | cons b bytes ih =>
    simp only [List.mem_cons, not_or] at others
    rw [List.cons_append, unpackNul_cons (Ne.symm others.1), ih others.2, List.cons_append]

theorem ne_toUInt8 {n : Nat} (small : n < 256) (other : n ≠ 0xC0) : (0xC0 : UInt8) ≠ n.toUInt8 := by
  intro eq
  have values := congrArg UInt8.toNat eq
  rw [toNat_toUInt8 small] at values
  exact other values.symm

theorem notMem_encodeCode {code : Nat} (bound : code < 0x110000) : 0xC0 ∉ encodeCode code := by
  unfold encodeCode
  split_ifs with one two three
  · simp only [List.mem_cons, List.not_mem_nil, or_false]
    exact ne_toUInt8 (by omega) (by omega)
  · simp only [List.mem_cons, List.not_mem_nil, or_false, not_or]
    exact ⟨ne_toUInt8 (by omega) (by omega), ne_toUInt8 (by omega) (by omega)⟩
  · simp only [List.mem_cons, List.not_mem_nil, or_false, not_or]
    exact ⟨ne_toUInt8 (by omega) (by omega), ne_toUInt8 (by omega) (by omega),
      ne_toUInt8 (by omega) (by omega)⟩
  · simp only [List.mem_cons, List.not_mem_nil, or_false, not_or]
    exact ⟨ne_toUInt8 (by omega) (by omega), ne_toUInt8 (by omega) (by omega),
      ne_toUInt8 (by omega) (by omega), ne_toUInt8 (by omega) (by omega)⟩

theorem unit_bound (unit : UInt16) : unit.toNat < 0x110000 :=
  Nat.lt_trans unit.toNat_lt (by decide)

theorem unpackNul_textBytes (units : List UInt16) :
    unpackNul (textBytes units) = (units.map UInt16.toNat).flatMap encodeCode := by
  induction units with
  | nil => rfl
  | cons unit units ih =>
    rw [textBytes] at ih
    rw [textBytes, List.flatMap_cons, List.map_cons, List.flatMap_cons, unitBytes]
    split_ifs with zero
    · subst zero
      rw [List.cons_append, List.cons_append, List.nil_append, unpackNul, ih]
      rfl
    · rw [unpackNul_append (notMem_encodeCode (unit_bound unit)), ih]

theorem decode_textBytes (units : List UInt16) :
    decode (textBytes units) = .ok (String.ofList (pairSurrogates (units.map UInt16.toNat))) := by
  have bounds : ∀ code ∈ units.map UInt16.toNat, code < 0x110000 := by
    intro code member
    obtain ⟨unit, _, rfl⟩ := List.mem_map.mp member
    exact unit_bound unit
  rw [decode, unpackNul_textBytes, codes?_encode _ bounds]

theorem pairSurrogates_plain {code : Nat} (plain : code.isValidChar) (rest : List Nat) :
    pairSurrogates (code :: rest) = Char.ofNat code :: pairSurrogates rest := by
  have notHigh : isHighSurrogate code = false := by
    simp only [isHighSurrogate, Nat.isValidChar] at *
    simp only [Bool.and_eq_false_iff, decide_eq_false_iff_not]
    omega
  have notLow : isLowSurrogate code = false := by
    simp only [isLowSurrogate, Nat.isValidChar] at *
    simp only [Bool.and_eq_false_iff, decide_eq_false_iff_not]
    omega
  cases rest <;> simp [pairSurrogates, notHigh, notLow]

end CallAtlas.ClassFile.ModifiedUtf8
