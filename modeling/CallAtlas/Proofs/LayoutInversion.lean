import CallAtlas.Proofs.AssemblyRoundTrip
import CallAtlas.Proofs.Outcomes
import Mathlib.Data.List.Induction

/-!
Bytes that can be decoded are the layout of an instruction. So decoding succeeds exactly on what is
laid out, and it looks at no byte beyond that.
-/

namespace CallAtlas

namespace ClassFile

theorem bytesOf_bigEndian (bytes : List UInt8) :
    bytesOf bytes.length (bigEndian bytes) = bytes := by
  induction bytes using List.reverseRecOn with
  | nil => rfl
  | append_singleton front last ih =>
    have low := last.toNat_lt
    have high : (bigEndian front * 256 + last.toNat) / 256 = bigEndian front := by omega
    have same : (bigEndian front * 256 + last.toNat).toUInt8 = last := by
      apply UInt8.toNat_inj.mp
      simp
    rw [List.length_append, List.length_singleton, bigEndian_concat, bytesOf, high, same, ih]

theorem bigEndian_lt (bytes : List UInt8) : bigEndian bytes < Nat.pow 256 bytes.length := by
  induction bytes using List.reverseRecOn with
  | nil => decide
  | append_singleton front last ih =>
    have low := last.toNat_lt
    rw [List.length_append, List.length_singleton, bigEndian_concat]
    change _ < Nat.pow 256 front.length * 256
    omega

end ClassFile

namespace Bytecode

open ClassFile

theorem length_slice {bytes : List UInt8} {start width : Nat}
    (enough : start + width ≤ bytes.length) :
    ((bytes.drop start).take width).length = width := by
  rw [List.length_take, List.length_drop]
  omega

theorem slice_lt {bytes : List UInt8} {start width : Nat} (enough : start + width ≤ bytes.length) :
    slice bytes start width < Nat.pow 256 width := by
  have bound := bigEndian_lt ((bytes.drop start).take width)
  rwa [length_slice enough] at bound

theorem drop_eq_bytesOf {bytes : List UInt8} {start width : Nat}
    (enough : start + width ≤ bytes.length) :
    bytes.drop start = bytesOf width (slice bytes start width) ++ bytes.drop (start + width) := by
  have written := bytesOf_bigEndian ((bytes.drop start).take width)
  rw [length_slice enough] at written
  rw [slice, written, ← List.drop_drop, List.take_append_drop]

theorem exists_byte (bytes : List UInt8) (start : Nat) (enough : start + 1 ≤ bytes.length) :
    ∃ n : UInt8, slice bytes start 1 = n.toNat ∧
      bytes.drop start = bytesOf 1 n.toNat ++ bytes.drop (start + 1) := by
  have value : (UInt8.ofNat (slice bytes start 1)).toNat = slice bytes start 1 :=
    UInt8.toNat_ofNat_of_lt' (slice_lt enough)
  refine ⟨UInt8.ofNat (slice bytes start 1), value.symm, ?_⟩
  rw [value]
  exact drop_eq_bytesOf enough

theorem exists_short (bytes : List UInt8) (start : Nat) (enough : start + 2 ≤ bytes.length) :
    ∃ n : UInt16, slice bytes start 2 = n.toNat ∧
      bytes.drop start = bytesOf 2 n.toNat ++ bytes.drop (start + 2) := by
  have value : (UInt16.ofNat (slice bytes start 2)).toNat = slice bytes start 2 :=
    UInt16.toNat_ofNat_of_lt' (slice_lt enough)
  refine ⟨UInt16.ofNat (slice bytes start 2), value.symm, ?_⟩
  rw [value]
  exact drop_eq_bytesOf enough

theorem exists_word (bytes : List UInt8) (start : Nat) (enough : start + 4 ≤ bytes.length) :
    ∃ value : Int32, slice bytes start 4 = value.toUInt32.toNat ∧
      bytes.drop start = wordBytes value ++ bytes.drop (start + 4) := by
  have value : (UInt32.ofNat (slice bytes start 4)).toInt32.toUInt32.toNat =
      slice bytes start 4 := by
    rw [UInt32.toUInt32_toInt32]
    exact UInt32.toNat_ofNat_of_lt' (slice_lt enough)
  refine ⟨(UInt32.ofNat (slice bytes start 4)).toInt32, value.symm, ?_⟩
  rw [wordBytes, value]
  exact drop_eq_bytesOf enough

theorem exists_words {bytes : List UInt8} {start count : Nat}
    (enough : start + 4 * count ≤ bytes.length) :
    ∃ words : List Int32, words.length = count ∧
      bytes.drop start = words.flatMap wordBytes ++ bytes.drop (start + 4 * count) := by
  induction count generalizing start with
  | zero => exact ⟨[], rfl, rfl⟩
  | succ count ih =>
    obtain ⟨word, _, first⟩ := exists_word bytes start (by omega)
    obtain ⟨words, length, rest⟩ := ih (show start + 4 + 4 * count ≤ bytes.length by omega)
    have place : start + 4 + 4 * count = start + 4 * (count + 1) := by omega
    refine ⟨word :: words, by rw [List.length_cons, length], ?_⟩
    rw [first, rest, place, List.flatMap_cons, List.append_assoc]

theorem exists_pairWords {words : List Int32} {count : Nat} (length : words.length = 2 * count) :
    ∃ pairs, pairs.length = count ∧ words = pairWords pairs := by
  induction count generalizing words with
  | zero => exact ⟨[], rfl, List.length_eq_zero_iff.mp length⟩
  | succ count ih =>
    match words, length with
    | key :: jump :: rest, length =>
      obtain ⟨pairs, size, split⟩ := ih (show rest.length = 2 * count by simp at length; omega)
      exact ⟨(key, jump) :: pairs, by rw [List.length_cons, size], by rw [split]; rfl⟩

theorem exists_fill {bytes : List UInt8} (offset : Nat)
    (enough : padding (offset + 1) ≤ bytes.length) :
    ∃ fill, bytes.take (padding (offset + 1)) = fillBytes fill offset := by
  refine ⟨fun i => bytes.getD i 0, ?_⟩
  apply List.ext_getElem
  · rw [length_fillBytes, List.length_take]
    omega
  · intro i first second
    rw [List.length_take] at first
    simp only [fillBytes, List.getElem_take, List.getElem_ofFn, List.getD_eq_getElem?_getD]
    rw [List.getElem?_eq_getElem (by omega), Option.getD_some]

theorem le_of_needOperands {mnemonic : String} {offset count : Nat} {bytes : List UInt8} {u : Unit}
    (there : needOperands mnemonic offset bytes count = .ok u) : count ≤ bytes.length := by
  rw [needOperands] at there
  split at there
  · rename_i enough
    exact (holds_iff count bytes).mp enough
  · cases there

theorem le_of_needSwitch {bytes : List UInt8} {start count place : Nat} {u : Unit}
    (there : needSwitch bytes start count place = .ok u) : count ≤ bytes.length - start := by
  rw [needSwitch] at there
  split at there
  · rename_i enough
    rwa [holds_iff, List.length_drop] at enough
  · cases there

theorem eq_ok_of_ofPool {α : Type} {found : Except FormatError α} {value : α}
    (done : ofPool found = .ok value) :
    found = .ok value := by
  cases found with
  | ok other => rw [Except.ok.inj done]
  | error e => cases done

theorem exists_tableSwitch {offset : Nat} {bytes : List UInt8} {result : Operands × Nat}
    (decoded : tableSwitch offset bytes = .ok result) :
    ∃ fill default low high jumps, (RawOperands.tableSwitch fill default low high jumps).Fits ∧
      (RawOperands.tableSwitch fill default low high jumps).bytes offset <+: bytes := by
  simp only [tableSwitch, bind_eq_ok] at decoded
  obtain ⟨_, first, body⟩ := decoded
  have enough := le_of_needSwitch first
  obtain ⟨fill, filled⟩ := exists_fill offset (show padding (offset + 1) ≤ bytes.length by omega)
  generalize padding (offset + 1) = pad at *
  obtain ⟨default, _, atDefault⟩ := exists_word bytes pad (by omega)
  obtain ⟨low, lowest, atLow⟩ := exists_word bytes (pad + 4) (by omega)
  obtain ⟨high, highest, atHigh⟩ := exists_word bytes (pad + 8) (by omega)
  rw [lowest, highest, signed_int32, signed_int32] at body
  split at body
  · cases body
  rename_i ordered
  obtain ⟨_, second, _⟩ := bind_eq_ok.mp body
  have more := le_of_needSwitch second
  generalize size : (high.toInt - low.toInt + 1).toNat = count at *
  obtain ⟨jumps, length, atJumps⟩ :=
    exists_words (show pad + 12 + 4 * count ≤ bytes.length by omega)
  refine ⟨fill, default, low, high, jumps, ⟨by omega, by omega⟩,
    bytes.drop (pad + 12 + 4 * count), ?_⟩
  simp only [RawOperands.bytes, List.append_assoc]
  rw [← filled, ← atJumps, ← atHigh, ← atLow, ← atDefault, List.take_append_drop]

theorem lt_of_signed_nonneg {n : Nat} (bound : n < Nat.pow 256 4) (positive : ¬ signed 32 n < 0) :
    n < 0x80000000 := by
  have word : Nat.pow 2 32 = 0x100000000 := rfl
  have same : Nat.pow 256 4 = 0x100000000 := rfl
  rw [signed] at positive
  split at positive
  · rename_i small
    exact small
  · omega

theorem exists_lookupSwitch {offset : Nat} {bytes : List UInt8} {result : Operands × Nat}
    (decoded : lookupSwitch offset bytes = .ok result) :
    ∃ fill default pairs, (RawOperands.lookupSwitch fill default pairs).Fits ∧
      (RawOperands.lookupSwitch fill default pairs).bytes offset <+: bytes := by
  simp only [lookupSwitch, bind_eq_ok] at decoded
  obtain ⟨_, first, body⟩ := decoded
  have enough := le_of_needSwitch first
  obtain ⟨fill, filled⟩ := exists_fill offset (show padding (offset + 1) ≤ bytes.length by omega)
  generalize padding (offset + 1) = pad at *
  obtain ⟨default, _, atDefault⟩ := exists_word bytes pad (by omega)
  have atSize := drop_eq_bytesOf (show pad + 4 + 4 ≤ bytes.length by omega)
  split at body
  · cases body
  rename_i positive
  obtain ⟨_, second, _⟩ := bind_eq_ok.mp body
  have more := le_of_needSwitch second
  have small := lt_of_signed_nonneg (slice_lt (show pad + 4 + 4 ≤ bytes.length by omega)) positive
  rw [signed_small small] at more
  generalize slice bytes (pad + 4) 4 = count at *
  rw [Int.toNat_natCast] at more
  obtain ⟨words, length, atWords⟩ :=
    exists_words (show pad + 8 + 4 * (2 * count) ≤ bytes.length by omega)
  obtain ⟨pairs, size, rfl⟩ := exists_pairWords length
  subst size
  refine ⟨fill, default, pairs, small, bytes.drop (pad + 8 + 4 * (2 * pairs.length)), ?_⟩
  simp only [RawOperands.bytes, List.append_assoc]
  rw [← filled, ← atWords, ← atSize, ← atDefault, List.take_append_drop]

theorem exists_index {α β : Type} {lookup : Nat → Except FormatError α} (known? : Nat → Option α)
    (inverts : ∀ {i : Nat} {value : α}, lookup i = .ok value → known? i = some value)
    {bytes : List UInt8} (enough : 2 ≤ bytes.length) {use : α → Decoded β} {result : β}
    (done : ofPool (lookup (slice bytes 0 2)) >>= use = .ok result) :
    ∃ n : UInt16, (known? n.toNat).isSome ∧ bytes = bytesOf 2 n.toNat ++ bytes.drop 2 := by
  obtain ⟨n, value, split⟩ := exists_short bytes 0 enough
  obtain ⟨found, looked, _⟩ := bind_eq_ok.mp done
  rw [value] at looked
  refine ⟨n, ?_, split⟩
  rw [inverts (eq_ok_of_ofPool looked)]
  rfl

theorem exists_wide {pool : Pool} {opcode : Opcode} (shape : opcode.shape = .wide) {offset : Nat}
    {bytes : List UInt8} {result : Operands × Nat}
    (decoded : decodeOperands pool opcode offset bytes = .ok result) :
    ∃ raw : RawOperands, raw.shape = .wide ∧ raw.Fits ∧ (raw.operands? pool offset).isSome ∧
      raw.bytes offset <+: bytes := by
  simp only [decodeOperands, shape] at decoded
  obtain ⟨_, there, body⟩ := bind_eq_ok.mp decoded
  obtain ⟨inner, value, first⟩ := exists_byte bytes 0 (le_of_needOperands there)
  rw [value] at body
  split at body
  · rename_i increments
    obtain ⟨_, further, _⟩ := bind_eq_ok.mp body
    have more := le_of_needOperands further
    obtain ⟨index, _, second⟩ := exists_short bytes 1 (Nat.le_trans (by decide) more)
    obtain ⟨amount, _, third⟩ := exists_short bytes 3 more
    refine ⟨.wideIncrement index amount.toInt16, rfl, trivial, rfl, bytes.drop 5, ?_⟩
    rw [RawOperands.bytes, UInt16.toUInt16_toInt16, ← increments, List.append_assoc,
      List.append_assoc, ← third, ← second]
    exact first.symm
  · rename_i other
    split at body
    · cases body
    · rename_i mnemonic listed
      obtain ⟨_, further, _⟩ := bind_eq_ok.mp body
      obtain ⟨index, _, second⟩ := exists_short bytes 1 (le_of_needOperands further)
      refine ⟨.wide inner index, rfl, other, ?_, bytes.drop 3, ?_⟩
      · rw [RawOperands.operands?, listed]
        rfl
      · rw [RawOperands.bytes, List.append_assoc, ← second]
        exact first.symm

/-- What is decoded was laid out there, and what it refers to is in the pool. -/
theorem exists_operands {pool : Pool} {opcode : Opcode} {offset : Nat} {bytes : List UInt8}
    {result : Operands × Nat} (decoded : decodeOperands pool opcode offset bytes = .ok result) :
    ∃ raw : RawOperands, raw.shape = opcode.shape ∧ raw.Fits ∧ (raw.operands? pool offset).isSome ∧
      raw.bytes offset <+: bytes := by
  cases shape : opcode.shape
  case wide => exact exists_wide shape decoded
  all_goals simp only [decodeOperands, shape] at decoded
  case plain => exact ⟨.plain, rfl, trivial, rfl, List.nil_prefix⟩
  case tableSwitch =>
    obtain ⟨fill, default, low, high, jumps, fits, laid⟩ := exists_tableSwitch decoded
    exact ⟨_, rfl, fits, rfl, laid⟩
  case lookupSwitch =>
    obtain ⟨fill, default, pairs, fits, laid⟩ := exists_lookupSwitch decoded
    exact ⟨_, rfl, fits, rfl, laid⟩
  all_goals
    obtain ⟨_, there, body⟩ := bind_eq_ok.mp decoded
    have enough := le_of_needOperands there
  case signedByte =>
    obtain ⟨n, _, split⟩ := exists_byte bytes 0 enough
    refine ⟨.signedByte n.toInt8, rfl, trivial, rfl, bytes.drop 1, ?_⟩
    rw [RawOperands.bytes, UInt8.toUInt8_toInt8]
    exact split.symm
  case signedShort =>
    obtain ⟨n, _, split⟩ := exists_short bytes 0 enough
    refine ⟨.signedShort n.toInt16, rfl, trivial, rfl, bytes.drop 2, ?_⟩
    rw [RawOperands.bytes, UInt16.toUInt16_toInt16]
    exact split.symm
  case branch =>
    obtain ⟨n, _, split⟩ := exists_short bytes 0 enough
    refine ⟨.branch n.toInt16, rfl, trivial, rfl, bytes.drop 2, ?_⟩
    rw [RawOperands.bytes, UInt16.toUInt16_toInt16]
    exact split.symm
  case wideBranch =>
    obtain ⟨jump, _, split⟩ := exists_word bytes 0 enough
    exact ⟨.wideBranch jump, rfl, trivial, rfl, bytes.drop 4, split.symm⟩
  case localIndex =>
    obtain ⟨n, _, split⟩ := exists_byte bytes 0 enough
    exact ⟨.localIndex n, rfl, trivial, rfl, bytes.drop 1, split.symm⟩
  case arrayType =>
    obtain ⟨n, _, split⟩ := exists_byte bytes 0 enough
    exact ⟨.arrayType n, rfl, trivial, rfl, bytes.drop 1, split.symm⟩
  case increment =>
    obtain ⟨index, _, first⟩ := exists_byte bytes 0 (Nat.le_trans (by decide) enough)
    obtain ⟨amount, _, second⟩ := exists_byte bytes 1 enough
    refine ⟨.increment index amount.toInt8, rfl, trivial, rfl, bytes.drop 2, ?_⟩
    rw [RawOperands.bytes, UInt8.toUInt8_toInt8, List.append_assoc, ← second]
    exact first.symm
  case shortConstant =>
    obtain ⟨n, value, split⟩ := exists_byte bytes 0 enough
    obtain ⟨literal, found, _⟩ := bind_eq_ok.mp body
    rw [value] at found
    refine ⟨.shortConstant n, rfl, trivial, ?_, bytes.drop 1, split.symm⟩
    rw [RawOperands.operands?, Pool.literal?_of_literal (eq_ok_of_ofPool found)]
    rfl
  case constant =>
    obtain ⟨n, known, split⟩ := exists_index pool.literal? Pool.literal?_of_literal enough body
    exact ⟨.constant n, rfl, trivial, by simpa [RawOperands.operands?] using known,
      bytes.drop 2, split.symm⟩
  case field =>
    obtain ⟨n, known, split⟩ :=
      exists_index pool.memberRef? Pool.memberRef?_of_memberRef enough body
    exact ⟨.field n, rfl, trivial, by simpa [RawOperands.operands?] using known,
      bytes.drop 2, split.symm⟩
  case method =>
    obtain ⟨n, known, split⟩ :=
      exists_index pool.methodRef? Pool.methodRef?_of_methodRef enough body
    exact ⟨.method n, rfl, trivial, by simpa [RawOperands.operands?] using known,
      bytes.drop 2, split.symm⟩
  case type =>
    obtain ⟨n, known, split⟩ := exists_index pool.class? Pool.class?_of_className enough body
    exact ⟨.type n, rfl, trivial, by simpa [RawOperands.operands?] using known,
      bytes.drop 2, split.symm⟩
  case interfaceMethod =>
    obtain ⟨n, known, first⟩ :=
      exists_index pool.methodRef? Pool.methodRef?_of_methodRef
        (Nat.le_trans (by decide) enough) body
    obtain ⟨count, _, second⟩ := exists_byte bytes 2 (Nat.le_trans (by decide) enough)
    obtain ⟨zero, _, third⟩ := exists_byte bytes 3 enough
    refine ⟨.interfaceMethod n count zero, rfl,
      trivial, by simpa [RawOperands.operands?] using known, bytes.drop 4, ?_⟩
    rw [RawOperands.bytes, List.append_assoc, List.append_assoc, ← third, ← second]
    exact first.symm
  case dynamic =>
    obtain ⟨n, known, first⟩ :=
      exists_index pool.callSite? Pool.callSite?_of_invokeDynamic
        (Nat.le_trans (by decide) enough) body
    obtain ⟨zeros, _, second⟩ := exists_short bytes 2 enough
    refine ⟨.dynamic n zeros, rfl, trivial, by simpa [RawOperands.operands?] using known,
      bytes.drop 4, ?_⟩
    rw [RawOperands.bytes, List.append_assoc, ← second]
    exact first.symm
  case multiArray =>
    obtain ⟨n, known, first⟩ :=
      exists_index pool.class? Pool.class?_of_className (Nat.le_trans (by decide) enough) body
    obtain ⟨dimensions, _, second⟩ := exists_byte bytes 2 enough
    refine ⟨.multiArray n dimensions, rfl, trivial, by simpa [RawOperands.operands?] using known,
      bytes.drop 3, ?_⟩
    rw [RawOperands.bytes, List.append_assoc, ← second]
    exact first.symm

theorem isSome_operands? (raw : RawOperands) (pool : Pool) (offset other : Nat) :
    (raw.operands? pool offset).isSome = (raw.operands? pool other).isSome := by
  cases raw <;> simp [RawOperands.operands?]

theorem RawInstruction.Denotes.unique {pool : Pool} {offset : Nat} {raw : RawInstruction}
    {one two : Instruction} (first : raw.Denotes pool offset one)
    (second : raw.Denotes pool offset two) : one = two := by
  obtain ⟨place, code, mnemonic, operands⟩ := first
  obtain ⟨place', code', mnemonic', operands'⟩ := second
  rw [mnemonic, Option.some.injEq] at mnemonic'
  rw [operands, Option.some.injEq] at operands'
  cases one
  cases two
  simp_all

/-- Decoding gives an instruction just if the bytes begin with its layout. -/
theorem decodeOne_eq_ok_iff {pool : Pool} {offset : Nat} {code : UInt8} {bytes : List UInt8}
    {instruction : Instruction} {used : Nat} :
    decodeOne pool offset code bytes = .ok (instruction, used) ↔
      ∃ raw : RawInstruction, raw.code = code ∧ raw.Valid pool ∧
        raw.Denotes pool offset instruction ∧ raw.operands.bytes offset <+: bytes ∧
        used = (raw.operands.bytes offset).length := by
  constructor
  · intro decoded
    have listed : ∃ opcode, opcode? code.toNat = some opcode ∧
        ∃ result, decodeOperands pool opcode offset bytes = .ok result := by
      unfold decodeOne at decoded
      split at decoded
      · cases decoded
      · rename_i opcode found
        obtain ⟨result, inner, _⟩ := bind_eq_ok.mp decoded
        exact ⟨opcode, found, result, inner⟩
    obtain ⟨opcode, found, result, inner⟩ := listed
    obtain ⟨raw, shape, fits, known, rest, laid⟩ := exists_operands inner
    have valid : RawInstruction.Valid pool ⟨code, raw⟩ := by
      refine ⟨?_, fits, ?_⟩
      · rw [found, Option.map_some, shape]
      · intro other
        rwa [isSome_operands? raw pool other offset]
    obtain ⟨same, denoted, again⟩ := decodeOne_bytes valid offset rest
    rw [← laid] at decoded
    cases decoded.symm.trans again
    exact ⟨⟨code, raw⟩, rfl, valid, denoted, ⟨rest, laid⟩, rfl⟩
  · rintro ⟨raw, rfl, valid, denoted, ⟨rest, rfl⟩, rfl⟩
    obtain ⟨same, denoted', decoded⟩ := decodeOne_bytes valid offset rest
    rw [decoded, denoted'.unique denoted]

end Bytecode

end CallAtlas
