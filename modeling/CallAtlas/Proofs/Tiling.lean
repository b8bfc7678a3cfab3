import CallAtlas.Proofs.LayoutInversion

/-!
The instructions of decoded code lie end to end from its first byte on. Decoding stops where the
code ends or where no instruction is laid out, and code that is cut off loses the instructions that
the cut goes through or that lie behind it.
-/

namespace CallAtlas.Bytecode

open ClassFile

def FormatOnly {α : Type} (outcome : Decoded α) : Prop := ∀ b, outcome ≠ .error (.unlistedWide b)

namespace FormatOnly

variable {α β : Type}

theorem ok (value : α) : FormatOnly (.ok value) := by
  intro b same
  cases same

theorem format (reason : FormatError) : FormatOnly (.error (.format reason) : Decoded α) := by
  intro b same
  cases same

theorem bind {outcome : Decoded α} {use : α → Decoded β} (first : FormatOnly outcome)
    (rest : ∀ value, FormatOnly (use value)) :
    FormatOnly (outcome >>= use) := by
  cases outcome with
  | ok value => exact rest value
  | error e =>
    intro b same
    cases same
    exact first b rfl

theorem needOperands (mnemonic : String) (offset : Nat) (bytes : List UInt8) (count : Nat) :
    FormatOnly (Bytecode.needOperands mnemonic offset bytes count) := by
  rw [Bytecode.needOperands]
  split
  · exact ok ()
  · exact format _

theorem needSwitch (bytes : List UInt8) (start count place : Nat) :
    FormatOnly (Bytecode.needSwitch bytes start count place) := by
  rw [Bytecode.needSwitch]
  split
  · exact ok ()
  · exact format _

theorem ofPool (found : Except FormatError α) : FormatOnly (Bytecode.ofPool found) := by
  cases found with
  | ok value => exact ok value
  | error reason => exact format reason

theorem tableSwitch (offset : Nat) (bytes : List UInt8) :
    FormatOnly (Bytecode.tableSwitch offset bytes) := by
  refine (needSwitch _ _ _ _).bind fun _ => ?_
  dsimp only
  split
  · exact (format _).bind fun _ => (needSwitch _ _ _ _).bind fun _ => ok _
  · exact (needSwitch _ _ _ _).bind fun _ => ok _

theorem lookupSwitch (offset : Nat) (bytes : List UInt8) :
    FormatOnly (Bytecode.lookupSwitch offset bytes) := by
  refine (needSwitch _ _ _ _).bind fun _ => ?_
  dsimp only
  split
  · exact (format _).bind fun _ => (needSwitch _ _ _ _).bind fun _ => ok _
  · exact (needSwitch _ _ _ _).bind fun _ => ok _

theorem decodeOperands (pool : Pool) {opcode : Opcode} (other : opcode.shape ≠ .wide) (offset : Nat)
    (bytes : List UInt8) :
    FormatOnly (Bytecode.decodeOperands pool opcode offset bytes) := by
  unfold Bytecode.decodeOperands
  cases shape : opcode.shape
  case wide => exact (other shape).elim
  case plain => exact ok _
  case tableSwitch => exact tableSwitch offset bytes
  case lookupSwitch => exact lookupSwitch offset bytes
  case shortConstant | constant | field | method | interfaceMethod | dynamic | type | multiArray =>
    exact (needOperands _ _ _ _).bind fun _ => (ofPool _).bind fun _ => ok _
  all_goals exact (needOperands _ _ _ _).bind fun _ => ok _

end FormatOnly

theorem shape_wide_iff :
    ∀ code < 256, ((opcode? code).map Opcode.shape = some .wide ↔ code = 0xC4) := by
  decide +kernel

theorem decodeOperands_wide {opcode : Opcode} (shape : opcode.shape = .wide) (pool : Pool)
    (offset : Nat) (bytes : List UInt8) (b : Nat) :
    decodeOperands pool opcode offset bytes = .error (.unlistedWide b) ↔
      ∃ byte, bytes[0]? = some byte ∧ byte.toNat = b ∧ opcode? b = none := by
  cases bytes with
  | nil =>
    have failed : decodeOperands pool opcode offset [] =
        .error (.format (.truncatedInstruction opcode.mnemonic offset)) := by
      simp only [decodeOperands, shape]
      rfl
    simp [failed]
  | cons byte rest =>
    have inner : slice (byte :: rest) 0 1 = byte.toNat := by simp [slice, bigEndian]
    have one : needOperands opcode.mnemonic offset (byte :: rest) 1 = .ok () :=
      needOperands_eq_ok (by simp)
    have other (count : Nat) (operands : Operands × Nat) :
        (needOperands opcode.mnemonic offset (byte :: rest) count >>= fun _ => .ok operands) ≠
        .error (.unlistedWide b) :=
      (FormatOnly.needOperands _ _ _ _).bind (fun _ => FormatOnly.ok _) b
    simp only [decodeOperands, shape, one, inner, mnemonic?]
    change (if byte.toNat = incrementCode then _ else _ : Decoded (Operands × Nat)) = _ ↔ _
    simp only [List.getElem?_cons_zero, Option.some.injEq, exists_eq_left']
    split
    · rename_i increments
      refine iff_of_false (other _ _) ?_
      rintro ⟨rfl, unlisted⟩
      rw [increments] at unlisted
      cases unlisted
    · cases listed : opcode? byte.toNat with
      | none =>
        simp only [Option.map_none]
        constructor
        · intro same
          cases same
          exact ⟨rfl, listed⟩
        · rintro ⟨rfl, _⟩
          rfl
      | some found =>
        refine iff_of_false (other _ _) ?_
        rintro ⟨rfl, unlisted⟩
        rw [listed] at unlisted
        cases unlisted

def WidensUnlisted (code : List UInt8) (place b : Nat) : Prop :=
  ∃ byte : UInt8, code[place]? = some 0xC4 ∧ code[place + 1]? = some byte ∧ byte.toNat = b ∧
    opcode? b = none

theorem WidensUnlisted.of_take {code : List UInt8} {length place b : Nat}
    (widens : WidensUnlisted (code.take length) place b) :
    WidensUnlisted code place b := by
  obtain ⟨byte, first, second, same, unlisted⟩ := widens
  have kept := List.prefix_iff_getElem?.mp (List.take_prefix length code)
  obtain ⟨inside, first'⟩ := List.getElem?_eq_some_iff.mp first
  obtain ⟨inside', second'⟩ := List.getElem?_eq_some_iff.mp second
  exact ⟨byte, first' ▸ kept place inside, second' ▸ kept (place + 1) inside', same, unlisted⟩

theorem decodeOne_unlistedWide (pool : Pool) {code : List UInt8} {place : Nat} {first : UInt8}
    {bytes : List UInt8} (here : code.drop place = first :: bytes) (b : Nat) :
    decodeOne pool place first bytes = .error (.unlistedWide b) ↔ WidensUnlisted code place b := by
  have byteHere : code[place]? = some first := by
    rw [← Nat.add_zero place, ← List.getElem?_drop, here]
    rfl
  have byteNext : code[place + 1]? = bytes[0]? := by
    rw [← List.getElem?_drop, here]
    rfl
  have codes := shape_wide_iff first.toNat first.toNat_lt
  simp only [WidensUnlisted, byteHere, byteNext, Option.some.injEq]
  cases listed : opcode? first.toNat with
  | none =>
    rw [listed] at codes
    have other : first ≠ 0xC4 := by
      rintro rfl
      cases codes.mpr rfl
    have failed :
        decodeOne pool place first bytes = .error (.format (.unknownOpcode first.toNat place)) := by
      simp only [decodeOne, listed]
      rfl
    simp [failed, other]
  | some opcode =>
    rw [listed, Option.map_some, Option.some.injEq] at codes
    have operands : decodeOne pool place first bytes = .error (.unlistedWide b) ↔
        decodeOperands pool opcode place bytes = .error (.unlistedWide b) := by
      simp only [decodeOne, listed]
      exact bind_pure_eq_error
    rw [operands]
    by_cases shape : opcode.shape = .wide
    · have widening : first = 0xC4 := UInt8.toNat_inj.mp (codes.mp shape)
      simp [decodeOperands_wide shape, widening]
    · have other : first ≠ 0xC4 := by
        rintro rfl
        exact shape (codes.mpr rfl)
      simp [FormatOnly.decodeOperands pool shape place bytes b, other]

def Spans (pool : Pool) (code : List UInt8) (instruction : Instruction) (start stop : Nat) : Prop :=
  ∃ raw : RawInstruction, raw.Valid pool ∧ raw.Denotes pool start instruction ∧
    raw.bytes start <+: code.drop start ∧ stop = start + (raw.bytes start).length

def FailsAt (pool : Pool) (code : List UInt8) (place : Nat) (error : DecodeError) : Prop :=
  ∃ first bytes, code.drop place = first :: bytes ∧ decodeOne pool place first bytes = .error error

section

variable {pool : Pool} {code : List UInt8} {instruction : Instruction} {start stop : Nat}

theorem spans_iff {first : UInt8} {bytes : List UInt8} (here : code.drop start = first :: bytes) :
    Spans pool code instruction start stop ↔
      ∃ used, decodeOne pool start first bytes = .ok (instruction, used) ∧
        stop = start + 1 + used := by
  simp only [Spans, here, decodeOne_eq_ok_iff, RawInstruction.bytes, List.cons_prefix_cons,
    List.length_cons]
  constructor
  · rintro ⟨raw, valid, denoted, ⟨rfl, laid⟩, rfl⟩
    exact ⟨_, ⟨raw, rfl, valid, denoted, laid, rfl⟩, by omega⟩
  · rintro ⟨used, ⟨raw, rfl, valid, denoted, laid, rfl⟩, rfl⟩
    exact ⟨raw, valid, denoted, ⟨rfl, laid⟩, by omega⟩

theorem spans_take {length : Nat} :
    Spans pool (code.take length) instruction start stop ↔ Spans pool code instruction start stop ∧
    stop ≤ length := by
  simp only [Spans, List.drop_take, List.prefix_take_iff]
  constructor
  · rintro ⟨raw, valid, denoted, ⟨laid, short⟩, rfl⟩
    have some : 0 < (raw.bytes start).length := by simp [RawInstruction.bytes]
    exact ⟨⟨raw, valid, denoted, laid, rfl⟩, by omega⟩
  · rintro ⟨⟨raw, valid, denoted, laid, rfl⟩, short⟩
    exact ⟨raw, valid, denoted, ⟨laid, by omega⟩, rfl⟩

namespace Spans

theorem offset_eq (span : Spans pool code instruction start stop) : instruction.offset = start := by
  obtain ⟨_, _, denoted, _, _⟩ := span
  exact denoted.1

theorem start_lt_stop (span : Spans pool code instruction start stop) : start < stop := by
  obtain ⟨raw, _, _, _, rfl⟩ := span
  simp [RawInstruction.bytes]

theorem stop_le_length (span : Spans pool code instruction start stop) : stop ≤ code.length := by
  have forward := span.start_lt_stop
  obtain ⟨raw, _, _, laid, rfl⟩ := span
  have short := laid.length_le
  rw [List.length_drop] at short
  omega

theorem exists_byte (span : Spans pool code instruction start stop) :
    ∃ first bytes, code.drop start = first :: bytes := by
  have inside : start < code.length := Nat.lt_of_lt_of_le span.start_lt_stop span.stop_le_length
  exact ⟨_, _, List.drop_eq_getElem_cons inside⟩

theorem unique {other : Instruction} {stop' : Nat} (span : Spans pool code instruction start stop)
    (span' : Spans pool code other start stop') : instruction = other ∧ stop = stop' := by
  obtain ⟨first, bytes, here⟩ := span.exists_byte
  obtain ⟨used, decoded, rfl⟩ := (spans_iff here).mp span
  obtain ⟨used', decoded', rfl⟩ := (spans_iff here).mp span'
  cases decoded.symm.trans decoded'
  exact ⟨rfl, rfl⟩

end Spans

end

namespace FailsAt

variable {pool : Pool} {code : List UInt8} {place : Nat} {error : DecodeError}

theorem lt_length (fails : FailsAt pool code place error) : place < code.length := by
  obtain ⟨first, bytes, here, _⟩ := fails
  apply Nat.lt_of_not_le
  intro beyond
  rw [List.drop_of_length_le beyond] at here
  cases here

theorem not_spans (fails : FailsAt pool code place error) (instruction : Instruction) (stop : Nat) :
    ¬Spans pool code instruction place stop := by
  obtain ⟨first, bytes, here, failed⟩ := fails
  intro span
  obtain ⟨used, decoded, _⟩ := (spans_iff here).mp span
  cases failed.symm.trans decoded

theorem eq_unlistedWide_iff (fails : FailsAt pool code place error) (b : Nat) :
    error = .unlistedWide b ↔ WidensUnlisted code place b := by
  obtain ⟨first, bytes, here, failed⟩ := fails
  rw [← decodeOne_unlistedWide pool here, failed, Except.error.injEq]

theorem exists_format (fails : FailsAt pool code place error)
    (other : ∀ b, ¬WidensUnlisted code place b) :
    ∃ reason, error = .format reason := by
  cases error with
  | format reason => exact ⟨reason, rfl⟩
  | unlistedWide b => exact (other b ((fails.eq_unlistedWide_iff b).mp rfl)).elim

end FailsAt

theorem Spans.not_widensUnlisted {pool : Pool} {code : List UInt8} {instruction : Instruction}
    {start stop : Nat} (span : Spans pool code instruction start stop)
    (b : Nat) : ¬WidensUnlisted code start b := by
  intro widens
  obtain ⟨first, bytes, here⟩ := span.exists_byte
  have failed := (decodeOne_unlistedWide pool here b).mpr widens
  exact FailsAt.not_spans ⟨first, bytes, here, failed⟩ instruction stop span

inductive Tiles (pool : Pool) (code : List UInt8) : Nat → List Instruction → Nat → Prop where
  | nil (place : Nat) : Tiles pool code place [] place
  | cons {start next stop : Nat} {first : Instruction} {rest : List Instruction}
      (span : Spans pool code first start next)
      (tail : Tiles pool code next rest stop) : Tiles pool code start (first :: rest) stop

namespace Tiles

variable {pool : Pool} {code : List UInt8} {instructions : List Instruction} {start stop : Nat}

theorem start_le_stop (tiles : Tiles pool code start instructions stop) : start ≤ stop := by
  induction tiles with
  | nil => exact Nat.le_refl _
  | cons span _ ih => exact Nat.le_trans (Nat.le_of_lt span.start_lt_stop) ih

theorem exists_first (tiles : Tiles pool code start instructions stop) (more : start < stop) :
    ∃ next first rest, instructions = first :: rest ∧ Spans pool code first start next ∧
      Tiles pool code next rest stop := by
  cases tiles with
  | nil => exact (Nat.lt_irrefl _ more).elim
  | cons span tail => exact ⟨_, _, _, rfl, span, tail⟩

theorem exists_spans (tiles : Tiles pool code start instructions stop) {instruction : Instruction}
    (listed : instruction ∈ instructions) :
    ∃ last, Spans pool code instruction instruction.offset last ∧ start ≤ instruction.offset ∧
      last ≤ stop := by
  induction tiles with
  | nil => cases listed
  | @cons start next stop first rest span tail ih =>
    rcases List.mem_cons.mp listed with rfl | later
    · rw [span.offset_eq]
      exact ⟨next, span, Nat.le_refl _, tail.start_le_stop⟩
    · obtain ⟨last, inner, after, before⟩ := ih later
      exact ⟨last, inner, Nat.le_trans (Nat.le_of_lt span.start_lt_stop) after, before⟩

theorem ascending (tiles : Tiles pool code start instructions stop) :
    instructions.Pairwise fun earlier later => earlier.offset < later.offset := by
  induction tiles with
  | nil => exact List.Pairwise.nil
  | cons span tail ih =>
    refine List.Pairwise.cons ?_ ih
    intro later listed
    obtain ⟨_, _, after, _⟩ := tail.exists_spans listed
    rw [span.offset_eq]
    exact Nat.lt_of_lt_of_le span.start_lt_stop after

theorem eq_or_ends (tiles : Tiles pool code start instructions stop) :
    stop = start ∨ ∃ last ∈ instructions, Spans pool code last last.offset stop := by
  induction tiles with
  | nil => exact Or.inl rfl
  | @cons start next stop first rest span tail ih =>
    right
    rcases ih with rfl | ⟨last, listed, ends⟩
    · exact ⟨first, List.mem_cons_self, by rwa [span.offset_eq]⟩
    · exact ⟨last, List.mem_cons_of_mem _ listed, ends⟩

/-- Of two tilings from one place, the shorter is the beginning of the longer. -/
theorem exists_append {front : List Instruction} {place : Nat}
    (short : Tiles pool code start front place) (tiles : Tiles pool code start instructions stop)
    (within : place ≤ stop) :
    ∃ back, instructions = front ++ back ∧ Tiles pool code place back stop := by
  induction short generalizing instructions with
  | nil => exact ⟨instructions, rfl, tiles⟩
  | @cons start next place first rest span tail ih =>
    cases tiles with
    | nil =>
      have forward := Nat.lt_of_lt_of_le span.start_lt_stop tail.start_le_stop
      omega
    | cons span' tail' =>
      obtain ⟨rfl, rfl⟩ := span.unique span'
      obtain ⟨back, rfl, rest⟩ := ih tail' within
      exact ⟨back, rfl, rest⟩

theorem of_take {length : Nat} (tiles : Tiles pool (code.take length) start instructions stop) :
    Tiles pool code start instructions stop := by
  induction tiles with
  | nil place => exact nil place
  | cons span _ ih => exact cons (spans_take.mp span).1 ih

end Tiles

/-- Decoding goes from instruction to instruction, and fails or gets to the end of the code. -/
theorem traceFrom_tiles (pool : Pool) {code bytes : List UInt8} {start : Nat}
    (here : code.drop start = bytes) (within : start ≤ code.length) :
    ∃ stop ≤ code.length, Tiles pool code start (traceFrom pool start bytes).instructions stop ∧
      ((traceFrom pool start bytes).failure = none ∧ stop = code.length ∨
        ∃ error, (traceFrom pool start bytes).failure = some error ∧
          FailsAt pool code stop error) := by
  fun_induction traceFrom pool start bytes with
  | case1 start =>
    have ended : start = code.length := Nat.le_antisymm within (List.drop_eq_nil_iff.mp here)
    exact ⟨start, within, Tiles.nil start, Or.inl ⟨rfl, ended⟩⟩
  | case2 start first rest error failed =>
    exact ⟨start, within, Tiles.nil start, Or.inr ⟨error, rfl, first, rest, here, failed⟩⟩
  | case3 start first rest instruction used decoded trace ih =>
    have span : Spans pool code instruction start (start + 1 + used) :=
      (spans_iff here).mpr ⟨used, decoded, rfl⟩
    have next : code.drop (start + 1 + used) = rest.drop used := by
      rw [Nat.add_assoc, ← List.drop_drop, here, Nat.add_comm, List.drop_succ_cons]
    obtain ⟨stop, inside, tiles, ending⟩ := ih next span.stop_le_length
    exact ⟨stop, inside, Tiles.cons span tiles, ending⟩

/-- Of the instructions that tile the code, those in `front` end at or before `length`, the last of
them at `place`, and those in `back` end beyond `length`. -/
structure CutsAt (pool : Pool) (code : List UInt8) (front back : List Instruction)
    (place length : Nat) : Prop where
  tiles : Tiles pool code 0 front place
  within : place ≤ length
  beyond : ∀ instruction ∈ back, ∀ stop, Spans pool code instruction instruction.offset stop →
    length < stop

namespace CutsAt

variable {pool : Pool} {code : List UInt8} {front back : List Instruction} {place length : Nat}

theorem mem_front_iff (cuts : CutsAt pool code front back place length) {instruction : Instruction}
    (listed : instruction ∈ front ++ back) :
    instruction ∈ front ↔ ∃ stop ≤ length, Spans pool code instruction instruction.offset stop := by
  constructor
  · intro kept
    obtain ⟨stop, span, _, before⟩ := cuts.tiles.exists_spans kept
    exact ⟨stop, Nat.le_trans before cuts.within, span⟩
  · rintro ⟨stop, short, span⟩
    apply (List.mem_append.mp listed).resolve_right
    intro later
    exact Nat.not_lt_of_le short (cuts.beyond instruction later stop span)

theorem place_eq_iff (cuts : CutsAt pool code front back place length) :
    place = length ↔ length = 0 ∨
    ∃ last ∈ front ++ back, Spans pool code last last.offset length := by
  constructor
  · rintro rfl
    apply cuts.tiles.eq_or_ends.imp_right
    rintro ⟨last, kept, ends⟩
    exact ⟨last, List.mem_append_left back kept, ends⟩
  · rintro (rfl | ⟨last, listed, ends⟩)
    · exact Nat.le_zero.mp cuts.within
    · have kept : last ∈ front := (cuts.mem_front_iff listed).mpr ⟨length, Nat.le_refl _, ends⟩
      obtain ⟨stop, span, _, before⟩ := cuts.tiles.exists_spans kept
      obtain ⟨_, rfl⟩ := span.unique ends
      exact Nat.le_antisymm cuts.within before

end CutsAt

theorem trace_take {pool : Pool} {code : List UInt8} {instructions : List Instruction}
    (whole : Tiles pool code 0 instructions code.length) {length : Nat}
    (within : length ≤ code.length) :
    ∃ back place, instructions = (trace pool (code.take length)).instructions ++ back ∧
      CutsAt pool code (trace pool (code.take length)).instructions back place length ∧
      ((trace pool (code.take length)).failure = none ∧ place = length ∨
        place < length ∧ ∃ reason, (trace pool (code.take length)).failure =
        some (.format reason)) := by
  have cut : (code.take length).length = length := List.length_take_of_le within
  obtain ⟨place, inside, tiles, ending⟩ :=
    traceFrom_tiles pool (rfl : (code.take length).drop 0 = _) (Nat.zero_le _)
  rw [cut] at inside ending
  obtain ⟨back, split, rest⟩ := tiles.of_take.exists_append whole (Nat.le_trans inside within)
  refine ⟨back, place, split, ?_⟩
  rcases ending with ⟨ended, rfl⟩ | ⟨error, failed, fails⟩
  · refine ⟨⟨tiles.of_take, inside, ?_⟩, Or.inl ⟨ended, rfl⟩⟩
    intro instruction listed stop span
    obtain ⟨_, _, after, _⟩ := rest.exists_spans listed
    exact Nat.lt_of_le_of_lt after span.start_lt_stop
  · have before : place < length := cut ▸ fails.lt_length
    -- the cut goes through the instruction at `place`, which could be decoded otherwise
    obtain ⟨next, first, more, rfl, span, tail⟩ :=
      rest.exists_first (Nat.lt_of_lt_of_le before within)
    have beyond : length < next := by
      apply Nat.lt_of_not_le
      intro short
      exact fails.not_spans first next (spans_take.mpr ⟨span, short⟩)
    refine ⟨⟨tiles.of_take, inside, ?_⟩, Or.inr ⟨before, ?_⟩⟩
    · intro instruction listed stop span'
      rcases List.mem_cons.mp listed with rfl | later
      · rw [span.offset_eq] at span'
        obtain ⟨_, rfl⟩ := span.unique span'
        exact beyond
      · obtain ⟨_, _, after, _⟩ := tail.exists_spans later
        exact Nat.lt_trans (Nat.lt_of_lt_of_le beyond after) span'.start_lt_stop
    · obtain ⟨reason, rfl⟩ :=
        fails.exists_format fun b widens => span.not_widensUnlisted b widens.of_take
      exact ⟨reason, failed⟩

/-- Decoded instructions tile the code. Code that is cut off loses just the instructions that do not
end before the cut, and decoding it fails unless the cut is where an instruction ends. -/
theorem trace_tiles (pool : Pool) (code : List UInt8) :
    (∃ stop ≤ code.length, Tiles pool code 0 (trace pool code).instructions stop ∧
      ((trace pool code).instructions.Pairwise fun earlier later => earlier.offset < later.offset) ∧
      ((trace pool code).failure = none → stop = code.length) ∧
      ∀ error, (trace pool code).failure = some error →
        stop < code.length ∧ (∀ instruction next, ¬Spans pool code instruction stop next) ∧
        (∀ b, error = .unlistedWide b ↔ WidensUnlisted code stop b) ∧
        ((∀ b, ¬WidensUnlisted code stop b) → ∃ reason, error = .format reason)) ∧
    ((trace pool code).failure = none → ∀ length ≤ code.length,
      (trace pool (code.take length)).instructions <+: (trace pool code).instructions ∧
      (∀ instruction ∈ (trace pool code).instructions,
        instruction ∈ (trace pool (code.take length)).instructions ↔
        ∃ stop ≤ length, Spans pool code instruction instruction.offset stop) ∧
      ((trace pool (code.take length)).failure = none ↔
        length = 0 ∨ ∃ last ∈ (trace pool code).instructions,
        Spans pool code last last.offset length) ∧
        ∀ error, (trace pool (code.take length)).failure = some error →
          ∃ reason, error = .format reason) := by
  obtain ⟨stop, inside, tiles, ending⟩ :=
    traceFrom_tiles pool (rfl : code.drop 0 = code) (Nat.zero_le _)
  change Tiles pool code 0 (trace pool code).instructions stop at tiles
  change (trace pool code).failure = none ∧ _ ∨
    ∃ error, (trace pool code).failure = some error ∧ _ at ending
  have complete : (trace pool code).failure = none → stop = code.length := by
    intro done
    rcases ending with ⟨_, ended⟩ | ⟨error, failed, _⟩
    · exact ended
    · cases done.symm.trans failed
  constructor
  · refine ⟨stop, inside, tiles, tiles.ascending, complete, ?_⟩
    intro error failed
    rcases ending with ⟨done, _⟩ | ⟨error', failed', fails⟩
    · cases done.symm.trans failed
    · cases failed'.symm.trans failed
      exact ⟨fails.lt_length, fails.not_spans, fails.eq_unlistedWide_iff, fails.exists_format⟩
  · intro done length within
    rw [complete done] at tiles
    obtain ⟨back, place, split, cuts, outcome⟩ := trace_take tiles within
    rw [split, ← cuts.place_eq_iff]
    refine ⟨List.prefix_append _ back, fun instruction listed => cuts.mem_front_iff listed, ?_⟩
    rcases outcome with ⟨ended, atCut⟩ | ⟨before, reason, failed⟩
    · simp [ended, atCut]
    · simp [failed, Nat.ne_of_lt before]

def widenedCode : List UInt8 := [0x00, 0xC4, 0xFF]

theorem trace_widenedCode : (trace smallPool widenedCode).failure = some (.unlistedWide 0xFF) := by
  have first : decodeOne smallPool 0 0x00 [0xC4, 0xFF] = .ok (⟨0, 0, "nop", .none⟩, 0) := rfl
  have second : decodeOne smallPool 1 0xC4 [0xFF] = .error (.unlistedWide 0xFF) := rfl
  simp only [trace, widenedCode, traceFrom, first, List.drop_zero, Nat.reduceAdd, second]

theorem trace_mixedCode : (trace smallPool (assemble mixedCode)).failure = none := by
  obtain ⟨instructions, traced, _⟩ := traceFrom_assembleFrom mixedCode_valid 0
  rw [trace, assemble, traced]

theorem trace_tiles_mixedCode :
    ((trace smallPool widenedCode).failure = some (.unlistedWide 0xFF) ∧
      ∃ stop < 3, Tiles smallPool widenedCode 0 (trace smallPool widenedCode).instructions stop ∧
        WidensUnlisted widenedCode stop 0xFF) ∧
    (trace smallPool (assemble mixedCode)).failure = none ∧
      ∀ length ≤ (assemble mixedCode).length,
        (trace smallPool ((assemble mixedCode).take length)).failure = none ↔
          length = 0 ∨ ∃ last ∈ (trace smallPool (assemble mixedCode)).instructions,
            Spans smallPool (assemble mixedCode) last last.offset length := by
  refine ⟨⟨trace_widenedCode, ?_⟩, trace_mixedCode, ?_⟩
  · obtain ⟨stop, _, tiles, _, _, fails⟩ := (trace_tiles smallPool widenedCode).1
    obtain ⟨inside, _, widens, _⟩ := fails _ trace_widenedCode
    exact ⟨stop, inside, tiles, (widens 0xFF).mp rfl⟩
  · intro length within
    exact ((trace_tiles smallPool (assemble mixedCode)).2 trace_mixedCode length within).2.2.1

end CallAtlas.Bytecode
