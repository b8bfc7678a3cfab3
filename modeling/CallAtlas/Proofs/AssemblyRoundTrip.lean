import CallAtlas.Proofs.Assembly

/-! Decoding gives back the instructions that were laid out, whatever the bytes between them are. -/

namespace CallAtlas.Bytecode

open ClassFile

theorem slice_bytesOf {width n : Nat} (bound : n < Nat.pow 256 width)
    {before : List UInt8} {start : Nat} (length : before.length = start) (rest : List UInt8) :
    slice (before ++ (bytesOf width n ++ rest)) start width = n := by
  rw [slice, List.drop_left' length, List.take_left' (length_bytesOf width n),
    bigEndian_bytesOf bound]

theorem slice_wordBytes (value : Int32) {before : List UInt8} {start : Nat}
    (length : before.length = start) (rest : List UInt8) :
    signed 32 (slice (before ++ (wordBytes value ++ rest)) start 4) = value.toInt := by
  rw [wordBytes, slice_bytesOf value.toUInt32.toNat_lt length, signed_int32]

@[simp] theorem length_wordBytes (value : Int32) : (wordBytes value).length = 4 :=
  length_bytesOf 4 _

theorem signedWords_bytes (words : List Int32) (rest : List UInt8) :
    signedWords words.length (words.flatMap wordBytes ++ rest) = words.map Int32.toInt := by
  induction words with
  | nil => rfl
  | cons word words ih =>
    rw [List.flatMap_cons, List.append_assoc, List.length_cons, signedWords,
      List.take_left' (length_wordBytes word), List.drop_left' (length_wordBytes word), ih,
      wordBytes, bigEndian_bytesOf word.toUInt32.toNat_lt, signed_int32,
      List.map_cons]

theorem length_flatMap_wordBytes (words : List Int32) :
    (words.flatMap wordBytes).length = 4 * words.length := by
  induction words with
  | nil => rfl
  | cons word words ih =>
    rw [List.flatMap_cons, List.length_append, ih, length_wordBytes, List.length_cons]
    omega

theorem needOperands_eq_ok {mnemonic : String} {offset count : Nat} {bytes : List UInt8}
    (enough : count ≤ bytes.length) :
    needOperands mnemonic offset bytes count = .ok () := by
  rw [needOperands, if_pos ((holds_iff count bytes).mpr enough)]

theorem needSwitch_eq_ok {bytes : List UInt8} {start count place : Nat}
    (enough : start + count ≤ bytes.length) :
    needSwitch bytes start count place = .ok () := by
  have there : holds count (bytes.drop start) = true := by
    rw [holds_iff, List.length_drop]
    omega
  rw [needSwitch, if_pos there]

theorem length_fillBytes (fill : Fin 3 → UInt8) (offset : Nat) :
    (fillBytes fill offset).length = padding (offset + 1) := by
  rw [fillBytes, List.length_take, List.length_ofFn, padding]
  omega

theorem tableSwitch_bytes {fill : Fin 3 → UInt8} {default low high : Int32} {jumps : List Int32}
    (ordered : low.toInt ≤ high.toInt)
    (each : (jumps.length : Int) = high.toInt - low.toInt + 1) (offset : Nat)
    (rest : List UInt8) :
    tableSwitch offset
      ((RawOperands.tableSwitch fill default low high jumps).bytes offset ++ rest) =
      .ok (.switch (offset + default.toInt)
        (jumps.mapIdx fun i jump => (low.toInt + i, offset + jump.toInt)),
        ((RawOperands.tableSwitch fill default low high jumps).bytes offset).length) := by
  have size := length_flatMap_wordBytes jumps
  simp only [RawOperands.bytes, List.append_assoc]
  generalize bytes :
    fillBytes fill offset ++ (wordBytes default ++ (wordBytes low ++ (wordBytes high ++
    (jumps.flatMap wordBytes ++ rest)))) = all
  have pad := length_fillBytes fill offset
  have long : padding (offset + 1) + 12 + 4 * jumps.length ≤ all.length := by
    simp only [← bytes, List.length_append, length_wordBytes]
    omega
  have atDefault : signed 32 (slice all (padding (offset + 1)) 4) = default.toInt := by
    rw [← bytes]
    exact slice_wordBytes default pad _
  have atLow : signed 32 (slice all (padding (offset + 1) + 4) 4) = low.toInt := by
    rw [← bytes, ← List.append_assoc]
    exact slice_wordBytes low (by simp [pad]) _
  have atHigh : signed 32 (slice all (padding (offset + 1) + 8) 4) = high.toInt := by
    rw [← bytes, ← List.append_assoc, ← List.append_assoc]
    exact slice_wordBytes high (by simp [pad]) _
  have count : (high.toInt - low.toInt + 1).toNat = jumps.length := by omega
  have words : signedWords jumps.length (all.drop (padding (offset + 1) + 12)) =
      jumps.map Int32.toInt := by
    rw [← bytes, ← List.append_assoc, ← List.append_assoc, ← List.append_assoc,
      List.drop_left' (by simp [pad]), signedWords_bytes]
  have first :
      needSwitch all (padding (offset + 1)) 12 (offset + 1 + padding (offset + 1)) = .ok () :=
    needSwitch_eq_ok (by omega)
  have second : needSwitch all (padding (offset + 1) + 12) (4 * jumps.length)
      (offset + 1 + padding (offset + 1) + 12) = .ok () :=
    needSwitch_eq_ok (by omega)
  simp only [tableSwitch, first, atDefault, atLow, atHigh, count, second, words,
    if_neg (Int.not_lt.mpr ordered), bind, Except.bind, pure, Except.pure]
  have targets :
      (jumps.map Int32.toInt).zipIdx.map (fun x => (low.toInt + x.2, (offset : Int) + x.1)) =
      jumps.mapIdx fun i jump => (low.toInt + i, (offset : Int) + jump.toInt) := by
    rw [List.mapIdx_eq_zipIdx_map, List.zipIdx_map, List.map_map]
    rfl
  have length : (fillBytes fill offset ++ (wordBytes default ++ (wordBytes low ++ (wordBytes high ++
      jumps.flatMap wordBytes)))).length = padding (offset + 1) + 12 + 4 * jumps.length := by
    simp only [List.length_append, length_wordBytes]
    omega
  rw [targets, length]

theorem pairUp_pairWords (pairs : List (Int32 × Int32)) :
    pairUp ((pairWords pairs).map Int32.toInt) = pairs.map fun pair =>
      (pair.1.toInt, pair.2.toInt) := by
  induction pairs with
  | nil => rfl
  | cons pair pairs ih =>
    rw [List.map_cons, ← ih]
    rfl

theorem length_pairWords (pairs : List (Int32 × Int32)) :
    (pairWords pairs).length = 2 * pairs.length := by
  induction pairs with
  | nil => rfl
  | cons pair pairs ih =>
    rw [List.length_cons, Nat.mul_add, ← ih]
    rfl

theorem signed_small {n : Nat} (small : n < 0x80000000) : signed 32 n = n := if_pos small

theorem lookupSwitch_bytes {fill : Fin 3 → UInt8} {default : Int32} {pairs : List (Int32 × Int32)}
    (few : pairs.length < 0x80000000) (offset : Nat) (rest : List UInt8) :
    lookupSwitch offset ((RawOperands.lookupSwitch fill default pairs).bytes offset ++ rest) =
      .ok (.switch (offset + default.toInt)
          (Table.ofPairs (pairs.map fun (key, jump) => (key.toInt, offset + jump.toInt))),
        ((RawOperands.lookupSwitch fill default pairs).bytes offset).length) := by
  have two := length_pairWords pairs
  have size := length_flatMap_wordBytes (pairWords pairs)
  simp only [RawOperands.bytes, List.append_assoc]
  generalize bytes : fillBytes fill offset ++ (wordBytes default ++ (bytesOf 4 pairs.length ++
    ((pairWords pairs).flatMap wordBytes ++ rest))) = all
  have pad := length_fillBytes fill offset
  have long : padding (offset + 1) + 8 + 4 * (2 * pairs.length) ≤ all.length := by
    simp only [← bytes, List.length_append, length_wordBytes, length_bytesOf]
    omega
  have atDefault : signed 32 (slice all (padding (offset + 1)) 4) = default.toInt := by
    rw [← bytes]
    exact slice_wordBytes default pad _
  have atSize : slice all (padding (offset + 1) + 4) 4 = pairs.length := by
    rw [← bytes, ← List.append_assoc]
    exact slice_bytesOf (Nat.lt_trans few (by decide)) (by simp [pad]) _
  have words : signedWords (2 * pairs.length) (all.drop (padding (offset + 1) + 8)) =
      (pairWords pairs).map Int32.toInt := by
    rw [← bytes, ← List.append_assoc, ← List.append_assoc, List.drop_left' (by simp [pad]), ← two,
      signedWords_bytes]
  have first :
      needSwitch all (padding (offset + 1)) 8 (offset + 1 + padding (offset + 1)) = .ok () :=
    needSwitch_eq_ok (by omega)
  have second : needSwitch all (padding (offset + 1) + 8) (4 * (2 * pairs.length))
      (offset + 1 + padding (offset + 1) + 8) = .ok () :=
    needSwitch_eq_ok (by omega)
  have positive : ¬ (pairs.length : Int) < 0 := by omega
  simp only [lookupSwitch, first, atDefault, atSize, signed_small few,
    Int.toNat_natCast, second, words, if_neg positive, pairUp_pairWords, List.map_map, bind,
    Except.bind, pure, Except.pure]
  have length : (fillBytes fill offset ++ (wordBytes default ++ (bytesOf 4 pairs.length ++
      (pairWords pairs).flatMap wordBytes))).length =
      padding (offset + 1) + 8 + 4 * (2 * pairs.length) := by
    simp only [List.length_append, length_wordBytes, length_bytesOf]
    omega
  rw [length]
  rfl

theorem slice_after (width n : Nat) (more : List UInt8) (start length : Nat) :
    slice (bytesOf width n ++ more) (width + start) length = slice more start length := by
  have skipped : (bytesOf width n ++ more).drop (width + start) = more.drop start := by
    rw [← List.drop_drop, List.drop_left' (length_bytesOf width n)]
  rw [slice, slice, skipped]

theorem slice_first {width n : Nat} (bound : n < Nat.pow 256 width) (rest : List UInt8) :
    slice (bytesOf width n ++ rest) 0 width = n := by
  have step := slice_bytesOf bound (List.length_nil) rest
  rwa [List.nil_append] at step

theorem slice_byte (n : UInt8) (rest : List UInt8) :
    slice (bytesOf 1 n.toNat ++ rest) 0 1 = n.toNat :=
  slice_first n.toNat_lt rest

theorem slice_short (n : UInt16) (rest : List UInt8) :
    slice (bytesOf 2 n.toNat ++ rest) 0 2 = n.toNat :=
  slice_first n.toNat_lt rest

theorem slice_word (value : Int32) (rest : List UInt8) :
    signed 32 (slice (wordBytes value ++ rest) 0 4) = value.toInt := by
  rw [wordBytes, slice_first value.toUInt32.toNat_lt, signed_int32]

theorem decodeOperands_bytes {pool : Pool} {opcode : Opcode} {raw : RawOperands}
    (same : opcode.shape = raw.shape) (fits : raw.Fits) {offset : Nat} {operands : Operands}
    (known : raw.operands? pool offset = some operands)
    (rest : List UInt8) :
    decodeOperands pool opcode offset (raw.bytes offset ++ rest) =
    .ok (operands, (raw.bytes offset).length) := by
  have there {count : Nat} (enough : count ≤ (raw.bytes offset).length) :
      needOperands opcode.mnemonic offset (raw.bytes offset ++ rest) count = .ok () := by
    refine needOperands_eq_ok ?_
    rw [List.length_append]
    omega
  rw [decodeOperands, same]
  cases raw with
  | plain =>
    cases known
    rfl
  | signedByte value =>
    cases known
    simp only [RawOperands.shape, RawOperands.bytes, length_bytesOf] at there ⊢
    simp only [there (Nat.le_refl 1), slice_byte, signed_int8, bind, Except.bind, pure, Except.pure]
  | signedShort value | branch value =>
    cases known
    simp only [RawOperands.shape, RawOperands.bytes, length_bytesOf] at there ⊢
    simp only [there (Nat.le_refl 2), slice_short, signed_int16, bind, Except.bind,
      pure, Except.pure]
  | localIndex n | arrayType n =>
    cases known
    simp only [RawOperands.shape, RawOperands.bytes, length_bytesOf] at there ⊢
    simp only [there (Nat.le_refl 1), slice_byte, bind, Except.bind, pure, Except.pure]
  | shortConstant index =>
    obtain ⟨value, found, rfl⟩ := Option.map_eq_some_iff.mp known
    simp only [RawOperands.shape, RawOperands.bytes, length_bytesOf] at there ⊢
    simp only [there (Nat.le_refl 1), slice_byte, Pool.literal_eq_ok found, ofPool, bind,
      Except.bind, pure, Except.pure]
  | constant index =>
    obtain ⟨value, found, rfl⟩ := Option.map_eq_some_iff.mp known
    simp only [RawOperands.shape, RawOperands.bytes, length_bytesOf] at there ⊢
    simp only [there (Nat.le_refl 2), slice_short, Pool.literal_eq_ok found, ofPool, bind,
      Except.bind, pure, Except.pure]
  | wideBranch jump =>
    cases known
    simp only [RawOperands.shape, RawOperands.bytes, length_wordBytes] at there ⊢
    simp only [there (Nat.le_refl 4), slice_word, bind, Except.bind, pure, Except.pure]
  | increment index amount =>
    cases known
    simp only [RawOperands.shape, RawOperands.bytes, List.length_append, length_bytesOf,
      List.append_assoc] at there ⊢
    simp only [there (Nat.le_refl 2), slice_byte, slice_after 1 _ _ 0, signed_int8, bind,
      Except.bind, pure, Except.pure]
  | field index =>
    obtain ⟨member, found, rfl⟩ := Option.map_eq_some_iff.mp known
    simp only [RawOperands.shape, RawOperands.bytes, length_bytesOf] at there ⊢
    simp only [there (Nat.le_refl 2), slice_short, Pool.memberRef_eq_ok found, ofPool, bind,
      Except.bind, pure, Except.pure]
  | method index =>
    obtain ⟨ref, found, rfl⟩ := Option.map_eq_some_iff.mp known
    simp only [RawOperands.shape, RawOperands.bytes, length_bytesOf] at there ⊢
    simp only [there (Nat.le_refl 2), slice_short, Pool.methodRef_eq_ok found, ofPool, bind,
      Except.bind, pure, Except.pure]
  | interfaceMethod index count zero =>
    obtain ⟨ref, found, rfl⟩ := Option.map_eq_some_iff.mp known
    simp only [RawOperands.shape, RawOperands.bytes, List.length_append, length_bytesOf,
      List.append_assoc] at there ⊢
    simp only [there (Nat.le_refl 4), slice_short, Pool.methodRef_eq_ok found, ofPool, bind,
      Except.bind, pure, Except.pure]
  | dynamic index zeros =>
    obtain ⟨site, found, rfl⟩ := Option.map_eq_some_iff.mp known
    simp only [RawOperands.shape, RawOperands.bytes, List.length_append, length_bytesOf,
      List.append_assoc] at there ⊢
    simp only [there (Nat.le_refl 4), slice_short, Pool.invokeDynamic_eq_ok found, ofPool, bind,
      Except.bind, pure, Except.pure]
  | type index =>
    obtain ⟨name, found, rfl⟩ := Option.map_eq_some_iff.mp known
    simp only [RawOperands.shape, RawOperands.bytes, length_bytesOf] at there ⊢
    simp only [there (Nat.le_refl 2), slice_short, Pool.className_eq_ok found, ofPool, bind,
      Except.bind, pure, Except.pure]
  | multiArray index dimensions =>
    obtain ⟨name, found, rfl⟩ := Option.map_eq_some_iff.mp known
    simp only [RawOperands.shape, RawOperands.bytes, List.length_append, length_bytesOf,
      List.append_assoc] at there ⊢
    simp only [there (Nat.le_refl 3), slice_short, slice_after 2 _ _ 0, slice_byte,
      Pool.className_eq_ok found, ofPool, bind, Except.bind, pure, Except.pure]
  | wide inner index =>
    obtain ⟨mnemonic, found, rfl⟩ := Option.map_eq_some_iff.mp known
    simp only [RawOperands.shape, RawOperands.bytes, List.length_append, length_bytesOf,
      List.append_assoc] at there ⊢
    have one := there (Nat.le_add_right 1 2)
    simp only [one, there (Nat.le_refl 3), slice_byte, if_neg fits, found, slice_after 1 _ _ 0,
      slice_short, bind, Except.bind, pure, Except.pure]
  | wideIncrement index amount =>
    cases known
    simp only [RawOperands.shape, RawOperands.bytes, List.length_append, length_bytesOf,
      List.append_assoc] at there ⊢
    have one := there (Nat.le_add_right 1 4)
    have inner :
        slice (bytesOf 1 incrementCode ++
          (bytesOf 2 index.toNat ++ (bytesOf 2 amount.toUInt16.toNat ++ rest)))
        0 1 = incrementCode := slice_first (by decide) _
    have last := slice_after 2 index.toNat (bytesOf 2 amount.toUInt16.toNat ++ rest) 0 2
    have far :=
      slice_after 1 incrementCode
        (bytesOf 2 index.toNat ++ (bytesOf 2 amount.toUInt16.toNat ++ rest)) 2 2
    simp only [one, there (Nat.le_refl 5), inner, if_pos, slice_after 1 _ _ 0, slice_short, far,
      last, signed_int16, bind, Except.bind, pure, Except.pure]
  | tableSwitch fill default low high jumps =>
    cases known
    exact tableSwitch_bytes fits.1 fits.2 offset rest
  | lookupSwitch fill default pairs =>
    cases known
    exact lookupSwitch_bytes fits offset rest

/-- One step: the instruction that stands first is decoded and takes exactly its own bytes. -/
theorem decodeOne_bytes {pool : Pool} {raw : RawInstruction} (valid : raw.Valid pool) (offset : Nat)
    (rest : List UInt8) :
    ∃ instruction, raw.Denotes pool offset instruction ∧
      decodeOne pool offset raw.code (raw.operands.bytes offset ++ rest) =
        .ok (instruction, (raw.operands.bytes offset).length) := by
  obtain ⟨opcode, listed, shape⟩ := Option.map_eq_some_iff.mp valid.listed
  obtain ⟨operands, known⟩ := Option.isSome_iff_exists.mp (valid.resolved offset)
  refine ⟨⟨offset, raw.code.toNat, opcode.mnemonic, operands⟩, ⟨rfl, rfl, ?_, known⟩, ?_⟩
  · rw [mnemonic?, listed]
    rfl
  · rw [decodeOne, listed]
    change decodeOperands pool opcode offset _ >>= _ = _
    rw [decodeOperands_bytes shape valid.fits known]
    rfl

theorem traceFrom_assembleFrom {pool : Pool} {raws : List RawInstruction}
    (valid : ∀ raw ∈ raws, raw.Valid pool) (offset : Nat) :
    ∃ instructions, traceFrom pool offset (assembleFrom offset raws) = ⟨instructions, none⟩ ∧
      instructions.length = raws.length ∧
      ∀ (i : Nat) (raw : RawInstruction) (instruction : Instruction), raws[i]? = some raw →
        instructions[i]? = some instruction →
        raw.Denotes pool (offset + (assembleFrom offset (raws.take i)).length) instruction := by
  induction raws generalizing offset with
  | nil =>
    refine ⟨[], ?_, rfl, ?_⟩
    · rw [assembleFrom, traceFrom]
    · intro i raw instruction impossible
      cases impossible
  | cons first raws ih =>
    obtain ⟨instruction, denoted, decoded⟩ :=
      decodeOne_bytes (valid first List.mem_cons_self) offset
      (assembleFrom (offset + (first.bytes offset).length) raws)
    obtain ⟨instructions, traced, same, each⟩ :=
      ih (fun raw member => valid raw (List.mem_cons_of_mem first member))
        (offset + (first.bytes offset).length)
    have length : offset + 1 + (first.operands.bytes offset).length =
        offset + (first.bytes offset).length := by
      rw [RawInstruction.bytes, List.length_cons]
      omega
    refine ⟨instruction :: instructions, ?_, ?_, ?_⟩
    · rw [assembleFrom, RawInstruction.bytes, List.cons_append, traceFrom]
      simp only [RawInstruction.bytes] at decoded length traced
      rw [decoded]
      simp only [List.drop_left, length, traced]
    · rw [List.length_cons, List.length_cons, same]
    · intro i raw found here there
      cases i with
      | zero =>
        cases here
        cases there
        exact denoted
      | succ i =>
        have later := each i raw found here there
        rw [List.take_succ_cons, assembleFrom, List.length_append, ← Nat.add_assoc]
        exact later

/-- Decoding undoes assembly: for every instruction that is laid out there is one that is decoded,
in the same order, and each is what it stands for at the end of those before it. -/
theorem decode_assemble (pool : Pool) (raws : List RawInstruction)
    (valid : ∀ raw ∈ raws, raw.Valid pool) :
    ∃ instructions, decode pool (assemble raws) = .ok instructions ∧
      instructions.length = raws.length ∧
      ∀ (i : Nat) (raw : RawInstruction) (instruction : Instruction), raws[i]? = some raw →
        instructions[i]? = some instruction →
        raw.Denotes pool (assemble (raws.take i)).length instruction := by
  obtain ⟨instructions, traced, same, each⟩ := traceFrom_assembleFrom valid 0
  refine ⟨instructions, ?_, same, ?_⟩
  · simp only [decode, trace, assemble, traced]
  · intro i raw instruction here there
    have denoted := each i raw instruction here there
    rwa [Nat.zero_add] at denoted

def smallPool : Pool :=
  ⟨[none, some (.utf8 "a/B"), some (.classRef 1), some (.interfaceMethod 2 4),
    some (.nameAndType 5 6), some (.utf8 "m"), some (.utf8 "()V")]⟩

/-- Both switches stand where there are bytes to fill, and what follows them is a call. -/
def mixedCode : List RawInstruction := [
  ⟨0x00, .plain⟩,
  ⟨0xAA, .tableSwitch (fun _ => 0xB9) (-1) (-2) 0 [7, -8, 9]⟩,
  ⟨0xB9, .interfaceMethod 3 1 0xFF⟩,
  ⟨0xAB, .lookupSwitch (fun _ => 0xAA) 5 [(3, 1), (-3, 2), (3, -4)]⟩,
  ⟨0xC4, .wideIncrement 0x1234 (-2)⟩,
  ⟨0xC4, .wide 0x15 0xFFFF⟩,
  ⟨0xB6, .method 3⟩]

theorem mixedCode_valid : ∀ raw ∈ mixedCode, raw.Valid smallPool := by
  simp only [mixedCode, List.forall_mem_cons, List.not_mem_nil, false_imp_iff,
    implies_true, and_true]
  refine ⟨?_, ?_, ?_, ?_, ?_, ?_, ?_⟩
  · exact ⟨by decide, trivial, fun _ => rfl⟩
  · exact ⟨by decide, by constructor <;> decide, fun _ => rfl⟩
  · exact ⟨by decide, trivial, fun _ => rfl⟩
  · exact ⟨by decide, by simp [RawOperands.Fits], fun _ => rfl⟩
  · exact ⟨by decide, trivial, fun _ => rfl⟩
  · exact ⟨by decide, by simp [RawOperands.Fits, incrementCode], fun _ => rfl⟩
  · exact ⟨by decide, trivial, fun _ => rfl⟩

theorem decode_assemble_mixedCode :
    (∀ raw ∈ mixedCode, raw.Valid smallPool) ∧
    ∃ instructions, decode smallPool (assemble mixedCode) = .ok instructions ∧
      instructions.length = mixedCode.length ∧
      ∀ (i : Nat) (raw : RawInstruction) (instruction : Instruction), mixedCode[i]? = some raw →
        instructions[i]? = some instruction →
        raw.Denotes smallPool (assemble (mixedCode.take i)).length instruction :=
  ⟨mixedCode_valid, decode_assemble smallPool mixedCode mixedCode_valid⟩

end CallAtlas.Bytecode
