import CallAtlas.Proofs.ModifiedText

/-!
The bytes that are the text of a class file, as a grammar. Reading accepts exactly these, and gives
back every text that was written.
-/

namespace CallAtlas.ClassFile.ModifiedUtf8

open Text

/-- A code point and the bytes of one unit that stands for it: the payload bits of the first byte
and six of each later one, in the shortest form. Zero has a second form; three bytes may also stand
for a surrogate. -/
inductive Stands : List UInt8 → Nat → Prop where
  | byte {a : Nat} (small : a < 0x80) : Stands [a.toUInt8] a
  | zero : Stands [0xC0, 0x80] 0
  | two {a b : Nat} (lead : a < 0x20) (tail : b < 0x40) (shortest : 0x80 ≤ a * 0x40 + b) :
    Stands [(0xC0 + a).toUInt8, (0x80 + b).toUInt8] (a * 0x40 + b)
  | three {a b c : Nat} (lead : a < 0x10) (tails : b < 0x40 ∧ c < 0x40)
      (shortest : 0x800 ≤ (a * 0x40 + b) * 0x40 + c) :
    Stands [(0xE0 + a).toUInt8, (0x80 + b).toUInt8, (0x80 + c).toUInt8] ((a * 0x40 + b) * 0x40 + c)
  | four {a b c d : Nat} (lead : a < 8) (tails : b < 0x40 ∧ c < 0x40 ∧ d < 0x40)
    (shortest : 0x10000 ≤ ((a * 0x40 + b) * 0x40 + c) * 0x40 + d)
    (bound : ((a * 0x40 + b) * 0x40 + c) * 0x40 + d ≤ 0x10FFFF) :
    Stands [(0xF0 + a).toUInt8, (0x80 + b).toUInt8, (0x80 + c).toUInt8, (0x80 + d).toUInt8]
      (((a * 0x40 + b) * 0x40 + c) * 0x40 + d)

def Spells (bytes : List UInt8) (codes : List Nat) : Prop :=
  ∃ units, bytes = units.flatten ∧ List.Forall₂ Stands units codes

/-- The characters of code points: a high surrogate with a low one right after it is one character,
any other surrogate is U+FFFD. -/
inductive Joined : List Nat → List Char → Prop where
  | nil : Joined [] []
  | scalar {codes : List Nat} {chars : List Char} (c : Char) (rest : Joined codes chars) :
      Joined (c.toNat :: codes) (c :: chars)
  | pair {high low : Nat} {codes : List Nat} {chars : List Char} {c : Char}
      (first : 0xD800 ≤ high ∧ high ≤ 0xDBFF)
    (second : 0xDC00 ≤ low ∧ low ≤ 0xDFFF)
      (value : c.toNat = 0x10000 + (high - 0xD800) * 0x400 + (low - 0xDC00))
    (rest : Joined codes chars) : Joined (high :: low :: codes) (c :: chars)
  | lone {code : Nat} {codes : List Nat} {chars : List Char}
      (surrogate : 0xD800 ≤ code ∧ code ≤ 0xDFFF)
    (alone : ¬ (code ≤ 0xDBFF ∧ ∃ low ∈ codes.head?, 0xDC00 ≤ low ∧ low ≤ 0xDFFF))
      (rest : Joined codes chars) :
    Joined (code :: codes) (replacement :: chars)

section

variable {a b c d : Nat}

theorem encodeCode_two (lead : a < 0x20) (tail : b < 0x40) (shortest : 0x80 ≤ a * 0x40 + b) :
    encodeCode (a * 0x40 + b) = [(0xC0 + a).toUInt8, (0x80 + b).toUInt8] := by
  have high : (a * 0x40 + b) / 0x40 = a := by omega
  have low : (a * 0x40 + b) % 0x40 = b := by omega
  rw [encodeCode, if_neg (by omega), if_pos (by omega), high, low]

theorem encodeCode_three (lead : a < 0x10) (tails : b < 0x40 ∧ c < 0x40)
    (shortest : 0x800 ≤ (a * 0x40 + b) * 0x40 + c) :
    encodeCode ((a * 0x40 + b) * 0x40 + c) =
    [(0xE0 + a).toUInt8, (0x80 + b).toUInt8, (0x80 + c).toUInt8] := by
  have high : ((a * 0x40 + b) * 0x40 + c) / 0x1000 = a := by omega
  have middle : ((a * 0x40 + b) * 0x40 + c) / 0x40 % 0x40 = b := by omega
  have low : ((a * 0x40 + b) * 0x40 + c) % 0x40 = c := by omega
  rw [encodeCode, if_neg (by omega), if_neg (by omega), if_pos (by omega), high, middle, low]

theorem encodeCode_four (tails : b < 0x40 ∧ c < 0x40 ∧ d < 0x40)
    (shortest : 0x10000 ≤ ((a * 0x40 + b) * 0x40 + c) * 0x40 + d) :
    encodeCode (((a * 0x40 + b) * 0x40 + c) * 0x40 + d) =
      [(0xF0 + a).toUInt8, (0x80 + b).toUInt8, (0x80 + c).toUInt8, (0x80 + d).toUInt8] := by
  have first : (((a * 0x40 + b) * 0x40 + c) * 0x40 + d) / 0x40000 = a := by omega
  have second : (((a * 0x40 + b) * 0x40 + c) * 0x40 + d) / 0x1000 % 0x40 = b := by omega
  have third : (((a * 0x40 + b) * 0x40 + c) * 0x40 + d) / 0x40 % 0x40 = c := by omega
  have fourth : (((a * 0x40 + b) * 0x40 + c) * 0x40 + d) % 0x40 = d := by omega
  rw [encodeCode, if_neg (by omega), if_neg (by omega), if_neg (by omega), first,
    second, third, fourth]

end

theorem stands_encodeCode {code : Nat} (bound : code < 0x110000) :
    Stands (encodeCode code) code := by
  unfold encodeCode
  split_ifs with one two three
  · exact .byte one
  · have value : code / 0x40 * 0x40 + code % 0x40 = code := by omega
    have stands := Stands.two (a := code / 0x40) (b := code % 0x40) (by omega) (by omega) (by omega)
    rwa [value] at stands
  · have value : (code / 0x1000 * 0x40 + code / 0x40 % 0x40) * 0x40 + code % 0x40 = code := by omega
    have stands :=
      Stands.three (a := code / 0x1000) (b := code / 0x40 % 0x40) (c := code % 0x40)
        (by omega) (by omega)
      (by omega)
    rwa [value] at stands
  · have value :
        ((code / 0x40000 * 0x40 + code / 0x1000 % 0x40) * 0x40 + code / 0x40 % 0x40) * 0x40 +
        code % 0x40 = code := by omega
    have stands :=
      Stands.four (a := code / 0x40000) (b := code / 0x1000 % 0x40) (c := code / 0x40 % 0x40)
      (d := code % 0x40) (by omega) (by omega) (by omega) (by omega)
    rwa [value] at stands

theorem Stands.shape {bytes : List UInt8} {code : Nat} (stands : Stands bytes code) :
    code < 0x110000 ∧ (bytes = encodeCode code ∨ (bytes = [0xC0, 0x80] ∧ code = 0)) := by
  cases stands with
  | zero => exact ⟨by decide, .inr ⟨rfl, rfl⟩⟩
  | byte small => exact ⟨by omega, .inl (by rw [encodeCode, if_pos small])⟩
  | two lead tail shortest => exact ⟨by omega, .inl (encodeCode_two lead tail shortest).symm⟩
  | three lead tails shortest => exact ⟨by omega, .inl (encodeCode_three lead tails shortest).symm⟩
  | four lead tails shortest bound => exact ⟨by omega, .inl (encodeCode_four tails shortest).symm⟩

section

variable {low high code : Nat} {b : UInt8} {bytes after : List UInt8}

theorem continuation_eq_iff {count acc seen : Nat} :
    continuation (count + 1) low high acc seen bytes = (code, seen + (count + 1), after) ↔
      ∃ b rest, bytes = b :: rest ∧ (low ≤ b.toNat ∧ b.toNat ≤ high) ∧
        continuation count 0x80 0xBF (acc * 0x40 + (b.toNat - 0x80))
        (seen + 1) rest = (code, seen + 1 + count, after) := by
  have total : seen + (count + 1) = seen + 1 + count := by omega
  cases bytes with
  | nil => simp [continuation]
  | cons b rest =>
    rw [continuation]
    split
    · rename_i within
      simp [within, total]
    · rename_i outside
      constructor
      · intro same
        simp only [Prod.mk.injEq] at same
        omega
      · intro step
        obtain ⟨_, _, same, within, _⟩ := step
        cases same
        exact (outside within).elim

theorem eq_toUInt8 {n : Nat} (value : b.toNat = n) : b = n.toUInt8 := by
  rw [← value]
  simp

theorem eq_tail (above : 0x80 ≤ b.toNat) : b = (0x80 + (b.toNat - 0x80)).toUInt8 :=
  eq_toUInt8 (by omega)

theorem eq_encodeCode_two {a : Nat} (lead : b.toNat = 0xC0 + a) (above : 2 ≤ a) (below : a < 0x20)
    (run : continuation 1 0x80 0xBF a 0 bytes = (code, 1, after)) :
    b :: bytes = encodeCode code ++ after ∧ code < 0x110000 := by
  obtain ⟨b₁, rest, rfl, within, done⟩ := continuation_eq_iff.mp run
  simp only [continuation, Prod.mk.injEq] at done
  obtain ⟨rfl, _, rfl⟩ := done
  have unit := encodeCode_two (a := a) (b := b₁.toNat - 0x80) below (by omega) (by omega)
  rw [unit, ← eq_toUInt8 lead, ← eq_tail within.1]
  exact ⟨rfl, by omega⟩

theorem eq_encodeCode_three {a : Nat} (lead : b.toNat = 0xE0 + a) (below : a < 0x10)
    (tail : 0x80 ≤ low ∧ high ≤ 0xBF) (shortest : a = 0 → 0xA0 ≤ low)
    (run : continuation 2 low high a 0 bytes = (code, 2, after)) :
    b :: bytes = encodeCode code ++ after ∧ code < 0x110000 := by
  obtain ⟨b₁, rest, rfl, within₁, later⟩ := continuation_eq_iff.mp run
  obtain ⟨b₂, rest, rfl, within₂, done⟩ := continuation_eq_iff.mp later
  simp only [continuation, Prod.mk.injEq] at done
  obtain ⟨rfl, _, rfl⟩ := done
  have unit :=
    encodeCode_three (a := a) (b := b₁.toNat - 0x80) (c := b₂.toNat - 0x80) below
      (by omega) (by omega)
  rw [unit, ← eq_toUInt8 lead, ← eq_tail (by omega), ← eq_tail within₂.1]
  exact ⟨rfl, by omega⟩

theorem eq_encodeCode_four {a : Nat} (lead : b.toNat = 0xF0 + a) (below : a ≤ 4)
    (tail : 0x80 ≤ low ∧ high ≤ 0xBF) (shortest : a = 0 → 0x90 ≤ low) (bound : a = 4 → high ≤ 0x8F)
    (run : continuation 3 low high a 0 bytes = (code, 3, after)) :
    b :: bytes = encodeCode code ++ after ∧ code < 0x110000 := by
  obtain ⟨b₁, rest, rfl, within₁, later⟩ := continuation_eq_iff.mp run
  obtain ⟨b₂, rest, rfl, within₂, later⟩ := continuation_eq_iff.mp later
  obtain ⟨b₃, rest, rfl, within₃, done⟩ := continuation_eq_iff.mp later
  simp only [continuation, Prod.mk.injEq] at done
  obtain ⟨rfl, _, rfl⟩ := done
  have unit :=
    encodeCode_four (a := a) (b := b₁.toNat - 0x80) (c := b₂.toNat - 0x80)
      (d := b₃.toNat - 0x80) (by omega)
    (by omega)
  rw [unit, ← eq_toUInt8 lead, ← eq_tail (by omega), ← eq_tail within₂.1, ← eq_tail within₃.1]
  exact ⟨rfl, by omega⟩

theorem exists_lead (found : nextCode? (b :: bytes) = some (code, after)) :
    ∃ lead, lead? true b.toNat = some lead ∧
      continuation lead.count lead.low lead.high lead.bits 0 bytes = (code, lead.count, after) := by
  simp only [nextCode?] at found
  split at found
  · cases found
  · rename_i lead first
    split at found
    · rename_i all
      cases found
      exact ⟨lead, first, Prod.ext rfl (Prod.ext all rfl)⟩
    · cases found

theorem nextCode?_eq_some_iff :
    nextCode? bytes = some (code, after) ↔ bytes = encodeCode code ++ after ∧ code < 0x110000 := by
  constructor
  · intro found
    cases bytes with
    | nil => cases found
    | cons b rest =>
      obtain ⟨lead, first, run⟩ := exists_lead found
      simp only [lead?, ↓reduceIte] at first
      split_ifs at first with one bad two e0 ed three f0 four f4
      all_goals
        cases first
        dsimp only at run
      · cases run
        rw [encodeCode, if_pos one, ← eq_toUInt8 rfl]
        exact ⟨rfl, by omega⟩
      · exact eq_encodeCode_two (by omega) (by omega) (by omega) run
      · exact eq_encodeCode_three e0 (by omega) (by omega) (by omega) run
      · exact eq_encodeCode_three ed (by omega) (by omega) (by omega) run
      · exact eq_encodeCode_three (by omega) (by omega) (by omega) (by omega) run
      · exact eq_encodeCode_four f0 (by omega) (by omega) (by omega) (by omega) run
      · exact eq_encodeCode_four (by omega) (by omega) (by omega) (by omega) (by omega) run
      · exact eq_encodeCode_four f4 (by omega) (by omega) (by omega) (by omega) run
  · intro shape
    obtain ⟨rfl, bound⟩ := shape
    exact nextCode?_encodeCode bound after

end

theorem eq_of_codesUpTo {fuel : Nat} {bytes : List UInt8} {codes : List Nat}
    (found : codesUpTo fuel bytes = some codes) :
    bytes = codes.flatMap encodeCode ∧ ∀ code ∈ codes, code < 0x110000 := by
  induction fuel generalizing bytes codes with
  | zero =>
    cases bytes with
    | nil =>
      cases found
      exact ⟨rfl, by simp⟩
    | cons b rest => cases found
  | succ fuel ih =>
    cases bytes with
    | nil =>
      cases found
      exact ⟨rfl, by simp⟩
    | cons b rest =>
      simp only [codesUpTo, Option.bind_eq_bind, Option.bind_eq_some_iff, Option.pure_def,
        Option.some.injEq, Prod.exists] at found
      obtain ⟨code, after, first, later, rest, rfl⟩ := found
      obtain ⟨shape, bound⟩ := nextCode?_eq_some_iff.mp first
      obtain ⟨tail, bounds⟩ := ih rest
      rw [shape, tail, List.flatMap_cons]
      exact ⟨rfl, List.forall_mem_cons.mpr ⟨bound, bounds⟩⟩

theorem codes?_eq_some_iff {bytes : List UInt8} {codes : List Nat} :
    codes? bytes = some codes ↔ bytes = codes.flatMap encodeCode ∧
    ∀ code ∈ codes, code < 0x110000 := by
  constructor
  · exact eq_of_codesUpTo
  · intro shape
    obtain ⟨rfl, bounds⟩ := shape
    exact codes?_encode codes bounds

theorem unpackNul_eq_cons {bytes rest : List UInt8} {b : UInt8}
    (unpacked : unpackNul bytes = b :: rest) :
    (∃ more, bytes = b :: more ∧ unpackNul more = rest) ∨
      (b = 0 ∧ ∃ more, bytes = 0xC0 :: 0x80 :: more ∧ unpackNul more = rest) := by
  fun_cases unpackNul bytes with
  | case1 more =>
    cases unpacked
    exact .inr ⟨rfl, more, rfl, rfl⟩
  | case2 first more other =>
    rw [unpackNul] at unpacked
    · cases unpacked
      exact .inl ⟨more, rfl, rfl⟩
    · exact other
  | case3 => cases unpacked

theorem unpackNul_eq_nil {bytes : List UInt8} (unpacked : unpackNul bytes = []) : bytes = [] := by
  fun_cases unpackNul bytes with
  | case1 more => cases unpacked
  | case2 first more other =>
    rw [unpackNul] at unpacked
    · cases unpacked
    · exact other
  | case3 => rfl

theorem exists_of_unpackNul_append {bytes front rest : List UInt8} (noZero : 0 ∉ front)
    (unpacked : unpackNul bytes = front ++ rest) : ∃ more, bytes = front ++ more ∧
    unpackNul more = rest := by
  induction front generalizing bytes with
  | nil => exact ⟨bytes, rfl, unpacked⟩
  | cons b front ih =>
    simp only [List.mem_cons, not_or] at noZero
    rcases unpackNul_eq_cons unpacked with ⟨more, rfl, later⟩ | ⟨rfl, _⟩
    · obtain ⟨last, rfl, same⟩ := ih noZero.2 later
      exact ⟨last, rfl, same⟩
    · exact (noZero.1 rfl).elim

theorem toNat_ne_zero_of_mem_encodeCode {code : Nat} (other : code ≠ 0) (bound : code < 0x110000) :
    ∀ b ∈ encodeCode code, b.toNat ≠ 0 := by
  unfold encodeCode
  split_ifs
  all_goals
    simp only [List.forall_mem_cons, List.not_mem_nil, false_imp_iff, implies_true, and_true]
    repeat rw [toNat_toUInt8 (by omega)]
    omega

theorem Spells.cons {unit bytes : List UInt8} {code : Nat} {codes : List Nat}
    (first : Stands unit code) (rest : Spells bytes codes) : Spells (unit ++ bytes)
    (code :: codes) := by
  obtain ⟨units, rfl, all⟩ := rest
  exact ⟨unit :: units, rfl, .cons first all⟩

theorem spells_of_unpackNul {codes : List Nat} {bytes : List UInt8}
    (bounds : ∀ code ∈ codes, code < 0x110000)
    (unpacked : unpackNul bytes = codes.flatMap encodeCode) : Spells bytes codes := by
  induction codes generalizing bytes with
  | nil =>
    rw [unpackNul_eq_nil unpacked]
    exact ⟨[], rfl, .nil⟩
  | cons code codes ih =>
    obtain ⟨bound, later⟩ := List.forall_mem_cons.mp bounds
    rw [List.flatMap_cons] at unpacked
    by_cases zero : code = 0
    · subst zero
      rcases unpackNul_eq_cons unpacked with ⟨more, rfl, same⟩ | ⟨_, more, rfl, same⟩
      · exact (ih later same).cons (.byte (by decide))
      · exact (ih later same).cons .zero
    · obtain ⟨more, rfl, same⟩ :=
        exists_of_unpackNul_append
          (fun member => toNat_ne_zero_of_mem_encodeCode zero bound 0 member rfl) unpacked
      exact (ih later same).cons (stands_encodeCode bound)

theorem unpackNul_of_spells {codes : List Nat} {bytes : List UInt8} (spelled : Spells bytes codes) :
    unpackNul bytes = codes.flatMap encodeCode ∧ ∀ code ∈ codes, code < 0x110000 := by
  obtain ⟨units, rfl, all⟩ := spelled
  induction all with
  | nil => exact ⟨rfl, by simp⟩
  | cons stands _ ih =>
    obtain ⟨same, bounds⟩ := ih
    obtain ⟨bound, rfl | ⟨rfl, rfl⟩⟩ := stands.shape
    · rw [List.flatten_cons, unpackNul_append (notMem_encodeCode bound), same]
      exact ⟨rfl, List.forall_mem_cons.mpr ⟨bound, bounds⟩⟩
    · rw [List.flatten_cons, List.flatMap_cons, ← same]
      exact ⟨rfl, List.forall_mem_cons.mpr ⟨bound, bounds⟩⟩

theorem codes?_unpackNul_iff {bytes : List UInt8} {codes : List Nat} :
    codes? (unpackNul bytes) = some codes ↔ Spells bytes codes := by
  rw [codes?_eq_some_iff]
  constructor
  · intro holds
    exact spells_of_unpackNul holds.2 holds.1
  · exact unpackNul_of_spells

theorem isSurrogate_iff (code : Nat) :
    (isHighSurrogate code || isLowSurrogate code) = true ↔ 0xD800 ≤ code ∧ code ≤ 0xDFFF := by
  simp only [isHighSurrogate, isLowSurrogate, Bool.or_eq_true, Bool.and_eq_true, decide_eq_true_eq]
  omega

theorem pairSurrogates_joins {high low : Nat} (first : 0xD800 ≤ high ∧ high ≤ 0xDBFF)
    (second : 0xDC00 ≤ low ∧ low ≤ 0xDFFF) (codes : List Nat) :
    pairSurrogates (high :: low :: codes) =
    Char.ofNat (0x10000 + (high - 0xD800) * 0x400 + (low - 0xDC00)) :: pairSurrogates codes := by
  simp [pairSurrogates, isHighSurrogate, isLowSurrogate, first, second]

theorem pairSurrogates_replaces {code : Nat} {codes : List Nat}
    (surrogate : 0xD800 ≤ code ∧ code ≤ 0xDFFF)
    (alone : ¬ (code ≤ 0xDBFF ∧ ∃ low ∈ codes.head?, 0xDC00 ≤ low ∧ low ≤ 0xDFFF)) :
    pairSurrogates (code :: codes) = replacement :: pairSurrogates codes := by
  have either := (isSurrogate_iff code).mpr surrogate
  cases codes with
  | nil => simp [pairSurrogates, either]
  | cons low codes =>
    have apart : (isHighSurrogate code && isLowSurrogate low) = false := by
      simp only [List.head?_cons, Option.mem_def, Option.some.injEq, exists_eq_left'] at alone
      simp only [isHighSurrogate, isLowSurrogate, Bool.and_eq_false_iff, decide_eq_false_iff_not]
      omega
    simp [pairSurrogates, either, apart]

theorem toNat_ofNat {code : Nat} (valid : code.isValidChar) : (Char.ofNat code).toNat = code := by
  rw [Char.ofNat, dif_pos valid]
  rfl

theorem Joined.eq_pairSurrogates {codes : List Nat} {chars : List Char}
    (joined : Joined codes chars) :
    chars = pairSurrogates codes := by
  induction joined with
  | nil => rfl
  | scalar c _ ih =>
    have valid : c.toNat.isValidChar := c.valid
    rw [pairSurrogates_plain valid, Char.ofNat_toNat, ih]
  | pair first second value _ ih =>
    rw [pairSurrogates_joins first second, ← value, Char.ofNat_toNat, ih]
  | lone surrogate alone _ ih => rw [pairSurrogates_replaces surrogate alone, ih]

theorem joined_scalar {code : Nat} {codes : List Nat} {chars : List Char} (valid : code.isValidChar)
    (rest : Joined codes chars) : Joined (code :: codes) (Char.ofNat code :: chars) := by
  have joined := Joined.scalar (Char.ofNat code) rest
  rwa [toNat_ofNat valid] at joined

theorem isValidChar_of_not_surrogate {code : Nat} (bound : code < 0x110000)
    (plain : ¬ (0xD800 ≤ code ∧ code ≤ 0xDFFF)) : code.isValidChar := by
  rw [Nat.isValidChar]
  omega

/-- By the cases of the pairing: the last code point, a pair, a surrogate without its partner and
any other code point. -/
theorem joined_pairSurrogates {codes : List Nat} (bounds : ∀ code ∈ codes, code < 0x110000) :
    Joined codes (pairSurrogates codes) := by
  fun_induction pairSurrogates codes with
  | case1 => exact .nil
  | case2 code =>
    have bound := bounds code List.mem_cons_self
    split
    · rename_i surrogate
      exact .lone ((isSurrogate_iff code).mp surrogate) (by simp) .nil
    · rename_i plain
      rw [isSurrogate_iff] at plain
      exact joined_scalar (isValidChar_of_not_surrogate bound plain) .nil
  | case3 high low codes both ih =>
    simp only [isHighSurrogate, isLowSurrogate, Bool.and_eq_true, decide_eq_true_eq] at both
    obtain ⟨first, second⟩ := both
    have rest :=
      ih fun code member => bounds code (List.mem_cons_of_mem _ (List.mem_cons_of_mem _ member))
    refine .pair first second (toNat_ofNat ?_) rest
    rw [Nat.isValidChar]
    omega
  | case4 high low codes apart surrogate ih =>
    rw [isSurrogate_iff] at surrogate
    refine .lone surrogate ?_ (ih fun code member => bounds code (List.mem_cons_of_mem _ member))
    simp only [isHighSurrogate, isLowSurrogate, Bool.and_eq_true, decide_eq_true_eq] at apart
    simp only [List.head?_cons, Option.mem_def, Option.some.injEq, exists_eq_left']
    omega
  | case5 high low codes apart plain ih =>
    rw [isSurrogate_iff] at plain
    have bound := bounds high List.mem_cons_self
    exact joined_scalar (isValidChar_of_not_surrogate bound plain)
      (ih fun code member => bounds code (List.mem_cons_of_mem _ member))

theorem decode_of_spells {bytes : List UInt8} {codes : List Nat} (spelled : Spells bytes codes) :
    decode bytes = .ok (String.ofList (pairSurrogates codes)) := by
  rw [decode, codes?_unpackNul_iff.mpr spelled]

theorem decode_eq_ok_iff {bytes : List UInt8} {codes : List Nat} {text : String}
    (spelled : Spells bytes codes) :
    decode bytes = .ok text ↔ Joined codes text.toList := by
  rw [decode_of_spells spelled]
  constructor
  · intro same
    cases same
    rw [String.toList_ofList]
    exact joined_pairSurrogates (unpackNul_of_spells spelled).2
  · intro joined
    rw [← joined.eq_pairSurrogates, String.ofList_toList]

theorem decode_of_not_spells {bytes : List UInt8} (none : ¬ ∃ codes, Spells bytes codes) :
    decode bytes = .error .malformedText := by
  rw [decode]
  split
  · rename_i codes found
    exact (none ⟨codes, codes?_unpackNul_iff.mp found⟩).elim
  · rfl

def charCodes (c : Char) : List Nat :=
  if c.toNat < 0x10000 then [c.toNat]
  else [0xD800 + (c.toNat - 0x10000) / 0x400, 0xDC00 + (c.toNat - 0x10000) % 0x400]

theorem toNat_lt (c : Char) : c.toNat < 0x110000 := by
  have valid : c.toNat.isValidChar := c.valid
  rw [Nat.isValidChar] at valid
  omega

theorem spells_encodeChar (c : Char) {bytes : List UInt8} {codes : List Nat}
    (rest : Spells bytes codes) :
    Spells (encodeChar c ++ bytes) (charCodes c ++ codes) := by
  have bound := toNat_lt c
  simp only [encodeChar, charCodes]
  split_ifs with zero small
  · rw [zero]
    exact rest.cons .zero
  · omega
  · exact rest.cons (stands_encodeCode bound)
  · rw [List.append_assoc]
    exact (rest.cons (stands_encodeCode (by omega))).cons (stands_encodeCode (by omega))

theorem joined_charCodes (c : Char) {codes : List Nat} {chars : List Char}
    (rest : Joined codes chars) :
    Joined (charCodes c ++ codes) (c :: chars) := by
  have bound := toNat_lt c
  rw [charCodes]
  split
  · exact .scalar c rest
  · refine .pair (by omega) (by omega) ?_ rest
    omega

theorem spells_joined_encode (chars : List Char) :
    Spells (chars.flatMap encodeChar) (chars.flatMap charCodes) ∧
    Joined (chars.flatMap charCodes) chars := by
  induction chars with
  | nil => exact ⟨⟨[], rfl, .nil⟩, .nil⟩
  | cons c chars ih => exact ⟨spells_encodeChar c ih.1, joined_charCodes c ih.2⟩

theorem decode_encode (text : String) : decode (encode text) = .ok text := by
  obtain ⟨spelled, joined⟩ := spells_joined_encode text.toList
  exact (decode_eq_ok_iff spelled).mpr joined

/-- Reading accepts exactly the bytes that units make up. It gives the characters of their code
points, none of which is a surrogate, and refuses all other bytes. A text that was written is read
again. -/
theorem decode_exact (bytes : List UInt8) :
    ((∃ text, decode bytes = .ok text) ↔ ∃ codes, Spells bytes codes) ∧
    (∀ codes text, Spells bytes codes → (decode bytes = .ok text ↔ Joined codes text.toList)) ∧
    (∀ text, decode bytes = .ok text → ∀ c ∈ text.toList, ¬ (0xD800 ≤ c.toNat ∧ c.toNat ≤ 0xDFFF)) ∧
    ((¬ ∃ codes, Spells bytes codes) → decode bytes = .error .malformedText) ∧
    ∀ text, decode (encode text) = .ok text := by
  refine ⟨?_, ?_, ?_, decode_of_not_spells, decode_encode⟩
  · constructor
    · intro accepted
      by_contra none
      rw [decode_of_not_spells none] at accepted
      obtain ⟨text, found⟩ := accepted
      cases found
    · intro spelled
      obtain ⟨codes, spelled⟩ := spelled
      exact ⟨_, decode_of_spells spelled⟩
  · intro codes text spelled
    exact decode_eq_ok_iff spelled
  · intro text _ c _
    have valid : c.toNat.isValidChar := c.valid
    rw [Nat.isValidChar] at valid
    omega

/-- Both forms of a character beyond U+FFFF, a stored zero and a surrogate before a character that
is none. -/
def mixedText : List UInt8 :=
  [0x41, 0xC0, 0x80, 0xC3, 0xA9, 0xED, 0xA0, 0xBD, 0xED, 0xB8, 0x80, 0xED, 0xA0, 0xBD, 0xF0,
    0x9F, 0x98, 0x80]

def brokenText : List UInt8 := [0xE0, 0xC0, 0x80, 0x80]

theorem decode_exact_mixed :
    Spells mixedText [0x41, 0, 0xE9, 0xD83D, 0xDE00, 0xD83D, 0x1F600] ∧
    decode mixedText = .ok "A\x00é😀\uFFFD😀" ∧ (¬ ∃ codes, Spells brokenText codes) ∧
    decode brokenText = .error .malformedText := by
  have spelled : Spells mixedText [0x41, 0, 0xE9, 0xD83D, 0xDE00, 0xD83D, 0x1F600] :=
    codes?_unpackNul_iff.mp (by decide)
  have refused : ¬ ∃ codes, Spells brokenText codes := by
    intro accepted
    obtain ⟨codes, spelled⟩ := accepted
    have none : codes? (unpackNul brokenText) = none := by decide
    rw [codes?_unpackNul_iff.mpr spelled] at none
    cases none
  obtain ⟨_, joins, _⟩ := decode_exact mixedText
  obtain ⟨_, _, _, refuses, _⟩ := decode_exact brokenText
  refine ⟨spelled, (joins _ _ spelled).mpr ?_, refused, refuses refused⟩
  exact .scalar 'A' (.scalar '\x00' (.scalar 'é' (.pair (by decide) (by decide) (by decide)
    (.lone (by decide) (by decide) (.scalar '😀' .nil)))))

end CallAtlas.ClassFile.ModifiedUtf8
