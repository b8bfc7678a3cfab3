import CallAtlas.Bytecode.Listing
import CallAtlas.Proofs.FileWrites
import CallAtlas.Proofs.Tiling

/-!
The lines of a listing. An instruction shows texts of the pool as they are, so that it takes one
line more for each line end in them.
-/

namespace CallAtlas

namespace Text

def lines (text : String) : List String := (splitAtEach '\n' text.toList).map String.ofList

def breaks (text : String) : Nat := text.toList.count '\n'

@[simp] theorem breaks_append (s t : String) : breaks (s ++ t) = breaks s + breaks t := by
  rw [breaks, String.toList_append, List.count_append]
  rfl

theorem breaks_eq_zero_iff {text : String} : breaks text = 0 ↔ '\n' ∉ text.toList :=
  List.count_eq_zero

theorem breaks_join_eq_zero_iff {texts : List String} :
    breaks (String.join texts) = 0 ↔ ∀ text ∈ texts, '\n' ∉ text.toList := by
  simp [breaks_eq_zero_iff, String.toList_join]

theorem breaks_intercalate {separator : String} (plain : breaks separator = 0) {texts : List String}
    (each : ∀ text ∈ texts, breaks text = 0) : breaks (separator.intercalate texts) = 0 := by
  induction texts with
  | nil => rfl
  | cons first rest ih =>
    rw [List.forall_mem_cons] at each
    cases rest with
    | nil => exact each.1
    | cons next later =>
      calc breaks (separator.intercalate (first :: next :: later))
          = breaks first + breaks separator + breaks (separator.intercalate (next :: later)) := by
            rw [String.intercalate_cons_cons, breaks_append, breaks_append]
        _ = 0 := by rw [each.1, plain, ih each.2]

theorem length_splitAtEach (c : Char) (s : List Char) :
    (splitAtEach c s).length = s.count c + 1 := by
  induction s with
  | nil => rfl
  | cons x rest ih =>
    rw [splitAtEach, List.count_cons]
    split
    case isTrue same => simp [same, ih]
    case isFalse apart =>
      obtain ⟨part, parts, split⟩ := List.exists_cons_of_ne_nil (splitAtEach_ne_nil c rest)
      rw [split] at ih ⊢
      simpa [apart] using ih

theorem length_lines (text : String) : (lines text).length = breaks text + 1 := by
  rw [lines, List.length_map, length_splitAtEach]
  rfl

theorem lines_of_breaks_eq_zero {text : String} (none : breaks text = 0) : lines text = [text] := by
  rw [lines, splitAtEach_of_notMem (breaks_eq_zero_iff.mp none), List.map_singleton,
    String.ofList_toList]

theorem lines_intercalate {texts : List String} (some : texts ≠ []) :
    lines ("\n".intercalate texts) = texts.flatMap lines := by
  induction texts with
  | nil => exact absurd rfl some
  | cons first rest ih =>
    cases rest with
    | nil => rw [String.intercalate_singleton, List.flatMap_singleton]
    | cons next later =>
      have chars : ("\n".intercalate (first :: next :: later)).toList =
          first.toList ++ '\n' :: ("\n".intercalate (next :: later)).toList := by
        simp [String.intercalate_cons_cons]
      calc lines ("\n".intercalate (first :: next :: later))
          = lines first ++ lines ("\n".intercalate (next :: later)) := by
            rw [lines, chars, splitAtEach_append, List.map_append]
            rfl
        _ = (first :: next :: later).flatMap lines := by
            rw [ih (List.cons_ne_nil _ _)]
            rfl

theorem notMem_toDigits (n : Nat) : '\n' ∉ Nat.toDigits 10 n := by
  intro member
  have digit : '\n'.isDigit = true := Nat.isDigit_of_mem_toDigits (by decide) (by decide) member
  exact absurd digit (by decide)

@[simp] theorem breaks_nat (n : Nat) : breaks n.repr = 0 := by
  rw [breaks_eq_zero_iff, Nat.toList_repr]
  exact notMem_toDigits n

@[simp] theorem breaks_int (value : Int) : breaks value.repr = 0 := by
  rw [Int.repr_eq_if]
  split
  · exact breaks_nat _
  · rw [breaks_append, breaks_nat]
    rfl

@[simp] theorem breaks_toString (text : String) : breaks (toString text) = breaks text := rfl

end Text

namespace Decimal

theorem notMem_significant (n : Nat) : '\n' ∉ significant n := by
  intro member
  rw [significant, List.mem_reverse] at member
  exact Text.notMem_toDigits n (List.mem_reverse.mp ((List.dropWhile_sublist _).mem member))

theorem notMem_positional {digits : List Char} (plain : '\n' ∉ digits) (lead : Int) :
    '\n' ∉ positional digits lead := by
  have front (count : Nat) : '\n' ∉ digits.take count :=
    fun member => plain (List.mem_of_mem_take member)
  have back (count : Nat) : '\n' ∉ digits.drop count :=
    fun member => plain (List.mem_of_mem_drop member)
  unfold positional
  split
  · simp [plain]
  · simp only
    split <;> simp [front, back]

theorem notMem_exponential {digits : List Char} (plain : '\n' ∉ digits) (lead : Int) :
    '\n' ∉ exponential digits lead := by
  have front : '\n' ∉ digits.take 1 := fun member => plain (List.mem_of_mem_take member)
  have back : '\n' ∉ digits.tail := fun member => plain (List.mem_of_mem_tail member)
  have power := Text.notMem_toDigits lead.natAbs
  unfold exponential
  simp only
  split <;> split <;> split <;> simp [front, back, power]

@[simp] theorem breaks_double (value : Double) : Text.breaks value.text = 0 := by
  have digits : '\n' ∉ value.magnitude.shortest.text := by
    rw [Digits.text]
    split
    · exact notMem_exponential (notMem_significant _) _
    · exact notMem_positional (notMem_significant _) _
  rw [Text.breaks_eq_zero_iff, Double.text]
  split
  · decide
  · rw [String.toList_ofList]
    split <;> split <;> (try split) <;> simp [digits]

end Decimal

namespace Bytecode

open ClassFile Text

/-- The texts of the pool that a literal shows. -/
def Literal.texts : Literal → List String
  | .text value | .type value | .marker value => [value]
  | .int _ | .float _ => []

def Operands.texts : Operands → List String
  | .load value => Literal.texts value
  | .field owner name descriptor => [owner, name, descriptor]
  | .method ref => [ref.owner, ref.name, ref.descriptor]
  | .dynamic name descriptor => [name, descriptor]
  | .type name | .multiArray name _ => [name]
  | _ => []

def Operands.word : Operands → String
  | .arrayOf word | .wide word _ | .wideIncrement word _ _ => word
  | _ => ""

theorem breaks_switchText (targets : Table Int Int) : breaks (switchText targets) = 0 := by
  have plain : breaks ": L" = 0 := by decide
  rw [switchText, breaks_append, breaks_append, breaks_intercalate (by decide)]
  · rfl
  · intro text member
    obtain ⟨entry, _, rfl⟩ := List.mem_map.mp member
    simp [plain]

theorem Operands.breaks_text (operands : Operands) :
    breaks operands.text = breaks operands.word + breaks (String.join operands.texts) := by
  have plain : breaks "" = 0 ∧ breaks " " = 0 ∧ breaks "." = 0 ∧ breaks " : " = 0 ∧ breaks "L" = 0 ∧
      breaks "\"" = 0 ∧ breaks ".class" = 0 ∧ breaks " (itf)" = 0 ∧
      breaks " default: L" = 0 := by decide
  cases operands with
  | none => rfl
  | number value => simp [text, word, texts, plain]
  | load value =>
    cases value <;> simp [text, loadText, Literal.text, word, texts, Literal.texts, plain]
  | branch target => simp [text, word, texts, plain]
  | increment index amount => simp [text, word, texts, plain]
  | field owner name descriptor => simp [text, word, texts, plain, Nat.add_assoc]
  | method ref =>
    rw [text, methodText]
    split <;> simp [word, texts, plain, Nat.add_assoc]
  | dynamic name descriptor => simp [text, word, texts, plain]
  | type name => simp [text, word, texts, plain]
  | arrayOf element => simp [text, word, texts, plain]
  | multiArray name dimensions => simp [text, word, texts, plain]
  | wide mnemonic index => simp [text, word, texts, plain]
  | wideIncrement mnemonic index amount => simp [text, word, texts, plain]
  | switch default targets => simp [text, word, texts, plain, breaks_switchText]

theorem toUpper_ne_lineEnd {c : Char} (other : c ≠ '\n') : c.toUpper ≠ '\n' := by
  intro upper
  unfold Char.toUpper at upper
  split at upper
  case isTrue lower =>
    obtain ⟨least, most⟩ := lower
    rw [Char.ext_iff] at upper
    simp only [Char.reduceVal] at least most upper
    grind
  case isFalse => exact other upper

theorem breaks_toUpper {text : String} (none : breaks text = 0) :
    breaks (text.map Char.toUpper) = 0 := by
  rw [breaks_eq_zero_iff] at none ⊢
  rw [String.toList_map, List.mem_map]
  intro ⟨c, member, upper⟩
  exact toUpper_ne_lineEnd (fun same => none (same ▸ member)) upper

theorem breaks_eq_zero_of_bytes {text : String}
    (absent : text.toByteArray.data.toList.contains 10 = false) :
    breaks text = 0 := by
  rw [breaks_eq_zero_iff]
  intro member
  have present : 10 ∈ text.toByteArray.data.toList := by
    rw [← text.ofList_toList, String.toByteArray_ofList, List.utf8Encode]
    simp only [List.data_toByteArray, List.mem_flatMap]
    exact ⟨'\n', member, by decide⟩
  rw [List.contains_iff_mem.mpr present] at absent
  cases absent

theorem breaks_mnemonic {code : Nat} {name : String} (listed : mnemonic? code = some name) :
    breaks name = 0 := by
  have each : (opcodeRows.all fun row => row.mnemonics.all fun name =>
      name.toByteArray.data.toList.contains 10 == false) = true := by
    decide +kernel
  obtain ⟨opcode, found, rfl⟩ := Option.map_eq_some_iff.mp listed
  obtain ⟨row, member, inRow⟩ := List.exists_of_findSome?_eq_some found
  have named : opcode.mnemonic ∈ row.mnemonics := by
    rw [OpcodeRow.find?] at inRow
    split at inRow
    · cases inRow
    · obtain ⟨name, here, rfl⟩ := Option.map_eq_some_iff.mp inRow
      exact List.mem_of_getElem? here
  have plain := List.all_eq_true.mp (List.all_eq_true.mp each row member) _ named
  exact breaks_eq_zero_of_bytes (beq_iff_eq.mp plain)

theorem breaks_arrayTypeName (code : Nat) : breaks (arrayTypeName code) = 0 := by
  unfold arrayTypeName
  split <;> first | exact breaks_nat code | decide

theorem breaks_word {pool : Pool} {offset : Nat} {raw : RawOperands} {operands : Operands}
    (denoted : raw.operands? pool offset = some operands) : breaks operands.word = 0 := by
  cases raw with
  | arrayType element =>
    cases denoted
    exact breaks_arrayTypeName element.toNat
  | wide inner index =>
    obtain ⟨mnemonic, listed, rfl⟩ := Option.map_eq_some_iff.mp denoted
    exact breaks_mnemonic listed
  | wideIncrement index amount =>
    cases denoted
    exact (by decide : breaks "iinc" = 0)
  | shortConstant | constant | field | method | interfaceMethod | dynamic | type | multiArray =>
    obtain ⟨_, _, rfl⟩ := Option.map_eq_some_iff.mp denoted
    rfl
  | _ =>
    cases denoted
    rfl

theorem breaks_padLeft {text : String} (none : breaks text = 0) (width : Nat) :
    breaks (padLeft width text) = 0 := by
  have spaces (count : Nat) : breaks (String.ofList (List.replicate count ' ')) = 0 := by
    rw [breaks_eq_zero_iff, String.toList_ofList, List.mem_replicate]
    intro both
    exact absurd both.2 (by decide)
  rw [padLeft, breaks_append, spaces, none]

/-- The line ends of an instruction are those of the texts that it shows. -/
theorem RawInstruction.Denotes.breaks_text {pool : Pool} {offset : Nat} {raw : RawInstruction}
    {instruction : Instruction} (denoted : raw.Denotes pool offset instruction) :
    breaks instruction.text = breaks (String.join instruction.operands.texts) := by
  obtain ⟨_, _, mnemonic, operands⟩ := denoted
  have number : breaks (padLeft 5 (toString instruction.offset)) = 0 :=
    breaks_padLeft (breaks_nat _) 5
  have name : breaks (instruction.mnemonic.map Char.toUpper) = 0 :=
    breaks_toUpper (breaks_mnemonic mnemonic)
  have shown :
      breaks instruction.operands.text = breaks (String.join instruction.operands.texts) := by
    rw [Operands.breaks_text, breaks_word operands, Nat.zero_add]
  have behind :
      breaks (if instruction.operands.text.isEmpty then "" else " " ++ instruction.operands.text) =
      breaks instruction.operands.text := by
    split
    case isTrue empty => rw [String.isEmpty_iff.mp empty]
    case isFalse => exact (breaks_append " " _).trans (Nat.zero_add _)
  calc breaks instruction.text
      = 0 + 0 + 0 + breaks instruction.operands.text := by
        rw [Instruction.text, breaks_append, breaks_append, breaks_append, number, name, behind]
        rfl
    _ = breaks (String.join instruction.operands.texts) := by rw [shown, Nat.zero_add]

theorem exists_denotes_of_decode {pool : Pool} {code : List UInt8} {instructions : List Instruction}
    (decoded : decode pool code = .ok instructions) {instruction : Instruction}
    (listed : instruction ∈ instructions) :
    ∃ raw : RawInstruction, raw.Denotes pool instruction.offset instruction := by
  have whole : instructions = (traceFrom pool 0 code).instructions := by
    simp only [decode, trace] at decoded
    split at decoded
    · exact (Except.ok.inj decoded).symm
    · cases decoded
  obtain ⟨stop, _, tiles, _⟩ := traceFrom_tiles pool (code.drop_zero) (Nat.zero_le code.length)
  obtain ⟨last, ⟨raw, _, denoted, _⟩, _⟩ := tiles.exists_spans (whole ▸ listed)
  exact ⟨raw, denoted⟩

def frameLines (method : CompiledMethod) : List String :=
  [s!"MAXSTACK = {method.maxStack}", s!"MAXLOCALS = {method.maxLocals}"]

theorem flatMap_lines_frameLines (method : CompiledMethod) : (frameLines method).flatMap lines =
    frameLines method := by
  have plain : breaks "MAXSTACK = " = 0 ∧ breaks "MAXLOCALS = " = 0 ∧ breaks "" = 0 := by decide
  have stack : lines s!"MAXSTACK = {method.maxStack}" = [s!"MAXSTACK = {method.maxStack}"] := by
    apply lines_of_breaks_eq_zero
    simp [plain]
  have locals : lines s!"MAXLOCALS = {method.maxLocals}" =
      [s!"MAXLOCALS = {method.maxLocals}"] := by
    apply lines_of_breaks_eq_zero
    simp [plain]
  rw [frameLines, List.flatMap_cons, List.flatMap_singleton, stack, locals]
  rfl

theorem length_flatMap_lines {instructions : List Instruction}
    (each : ∀ instruction ∈ instructions, breaks instruction.text =
      breaks (String.join instruction.operands.texts)) :
    (instructions.flatMap fun instruction => lines instruction.text).length = instructions.length +
      breaks (String.join
        (instructions.flatMap fun instruction => instruction.operands.texts)) := by
  induction instructions with
  | nil => rfl
  | cons first rest ih =>
    rw [List.forall_mem_cons] at each
    rw [List.flatMap_cons, List.length_append, length_lines, ih each.2, List.flatMap_cons,
      String.join_append, breaks_append, each.1, List.length_cons]
    omega

/-- The listing of code that decodes has the lines of each instruction and two for the frame. An
instruction takes a line, and one more for each line end in the texts of the pool that it shows. So
the lines are the instructions just if none of these texts has a line end. -/
theorem listing_lines (pool : Pool) (method : CompiledMethod) {code : List UInt8}
    {instructions : List Instruction} (coded : method.code = some code)
    (decoded : decode pool code = .ok instructions) :
    ∃ text, listing pool method = .ok text ∧
      lines text = instructions.flatMap (fun instruction => lines instruction.text) ++
      frameLines method ∧ (lines text).length = instructions.length + 2 +
        breaks (String.join (instructions.flatMap fun instruction => instruction.operands.texts)) ∧
      (lines text = instructions.map Instruction.text ++ frameLines method ↔
        ∀ instruction ∈ instructions, ∀ shown ∈ instruction.operands.texts,
          '\n' ∉ shown.toList) := by
  have each : ∀ instruction ∈ instructions, breaks instruction.text =
      breaks (String.join instruction.operands.texts) := by
    intro instruction listed
    obtain ⟨raw, denoted⟩ := exists_denotes_of_decode decoded listed
    exact denoted.breaks_text
  have listed : listing pool method =
      .ok ("\n".intercalate (instructions.map Instruction.text ++ frameLines method)) := by
    rw [listing, coded]
    exact bind_eq_ok.mpr ⟨instructions, decoded, rfl⟩
  have parts : lines ("\n".intercalate (instructions.map Instruction.text ++ frameLines method)) =
      instructions.flatMap (fun instruction => lines instruction.text) ++ frameLines method := by
    rw [lines_intercalate (by simp [frameLines]), List.flatMap_append, List.flatMap_map,
      flatMap_lines_frameLines]
  have length := congrArg List.length parts
  rw [List.length_append, length_flatMap_lines each] at length
  have frame : (frameLines method).length = 2 := rfl
  refine ⟨_, listed, parts, by omega, ?_⟩
  constructor
  · intro same
    have lengths := congrArg List.length same
    rw [List.length_append, List.length_map] at lengths
    have none :
        breaks (String.join (instructions.flatMap fun instruction => instruction.operands.texts)) =
        0 := by omega
    intro instruction member shown inside
    exact breaks_join_eq_zero_iff.mp none shown (List.mem_flatMap.mpr ⟨instruction, member, inside⟩)
  · intro plain
    have single : ∀ instruction ∈ instructions, lines instruction.text = [instruction.text] := by
      intro instruction member
      apply lines_of_breaks_eq_zero
      rw [each instruction member, breaks_join_eq_zero_iff]
      exact plain instruction member
    rw [parts, List.flatMap_congr single, ← List.map_eq_flatMap]

def loadingMethod : CompiledMethod :=
  { name := "m", descriptor := "()V", access := 1, code := some [0x12, 0x02, 0xB1], maxStack := 1,
    maxLocals := 1 }

def textPool (text : String) : Pool := ⟨[none, some (.utf8 text), some (.string 1)]⟩

theorem decode_loading (text : String) : decode (textPool text) [0x12, 0x02, 0xB1] =
    .ok [⟨0, 0x12, "ldc", .load (.text text)⟩, ⟨2, 0xB1, "return", .none⟩] := by
  have first : decodeOne (textPool text) 0 0x12 [0x02, 0xB1] =
      .ok (⟨0, 0x12, "ldc", .load (.text text)⟩, 1) := rfl
  have second : decodeOne (textPool text) 2 0xB1 [] = .ok (⟨2, 0xB1, "return", .none⟩, 0) := rfl
  simp [decode, trace, traceFrom, first, second]

theorem listing_lines_loading :
    decode (textPool "a b") [0x12, 0x02, 0xB1] =
        .ok [⟨0, 0x12, "ldc", .load (.text "a b")⟩, ⟨2, 0xB1, "return", .none⟩] ∧
      ∃ text, listing (textPool "a b") loadingMethod = .ok text ∧
        lines text = ["    0: LDC \"a b\"", "    2: RETURN", "MAXSTACK = 1", "MAXLOCALS = 1"] := by
  obtain ⟨text, listed, _, _, plain⟩ :=
    listing_lines (textPool "a b") loadingMethod rfl (decode_loading "a b")
  refine ⟨decode_loading "a b", text, listed, ?_⟩
  rw [plain.mpr (by simp [Operands.texts, Literal.texts])]
  decide +kernel

/-- A line end in a text that is loaded makes two lines of one instruction. -/
theorem listing_breaks_instruction : ∃ instructions text,
    decode (textPool "a\nb") [0x12, 0x02, 0xB1] = .ok instructions ∧
    listing (textPool "a\nb") loadingMethod = .ok text ∧
      instructions.length = 2 ∧
      lines text = ["    0: LDC \"a", "b\"", "    2: RETURN", "MAXSTACK = 1", "MAXLOCALS = 1"] := by
  refine ⟨_, "    0: LDC \"a\nb\"\n    2: RETURN\nMAXSTACK = 1\nMAXLOCALS = 1",
    decode_loading "a\nb", ?_, rfl, ?_⟩
  · rw [listing]
    refine bind_eq_ok.mpr ⟨_, decode_loading "a\nb", congrArg Except.ok ?_⟩
    decide +kernel
  · decide +kernel

end Bytecode

end CallAtlas
