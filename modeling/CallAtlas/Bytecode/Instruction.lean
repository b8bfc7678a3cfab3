import CallAtlas.Bytecode.Opcode
import CallAtlas.ClassFile.Pool
import CallAtlas.Table

/-!
Instructions with their operands resolved in the constant pool, and their decoding from bytes.
-/

namespace CallAtlas.Bytecode

open ClassFile

inductive Operands where
  | none
  | number (value : Int)
  | load (value : Literal)
  | branch (target : Int)
  | increment (index : Nat) (amount : Int)
  | field (owner name descriptor : String)
  | method (ref : MethodRef)
  | dynamic (name descriptor : String)
  | type (name : String)
  | arrayOf (element : String)
  | multiArray (name : String) (dimensions : Nat)
  | wide (mnemonic : String) (index : Nat)
  | wideIncrement (mnemonic : String) (index : Nat) (amount : Int)
  | switch (default : Int) (targets : Table Int Int)
  deriving DecidableEq, Repr

structure Instruction where
  offset : Nat
  code : Nat
  mnemonic : String
  operands : Operands
  deriving DecidableEq, Repr

/-- The method that an instruction invokes. Dynamic call sites name none. -/
def Instruction.invoked? (instruction : Instruction) : Option MethodRef :=
  match instruction.operands with
  | .method ref => some ref
  | _ => none

inductive DecodeError where
  | format (error : FormatError)
  /-- The byte after a widening prefix is no opcode. -/
  | unlistedWide (code : Nat)
  deriving DecidableEq, Repr

def DecodeError.message : DecodeError → String
  | format error => error.message
  | unlistedWide code => toString code

abbrev Decoded := Except DecodeError

def ofPool {α : Type} : Except FormatError α → Decoded α
  | .ok value => .ok value
  | .error error => .error (.format error)

def slice (bytes : List UInt8) (start length : Nat) : Nat :=
  bigEndian ((bytes.drop start).take length)

def signedWords : Nat → List UInt8 → List Int
  | 0, _ => []
  | count + 1, bytes => signed 32 (bigEndian (bytes.take 4)) :: signedWords count (bytes.drop 4)

def needSwitch (bytes : List UInt8) (start count place : Nat) : Decoded Unit :=
  if holds count (bytes.drop start) then .ok () else .error (.format (.truncatedSwitch place))

def padding (place : Nat) : Nat := (4 - place % 4) % 4

def pairUp : List Int → List (Int × Int)
  | key :: target :: rest => (key, target) :: pairUp rest
  | _ => []

def tableSwitch (offset : Nat) (bytes : List UInt8) : Decoded (Operands × Nat) := do
  let pad := padding (offset + 1)
  needSwitch bytes pad 12 (offset + 1 + pad)
  let default := signed 32 (slice bytes pad 4)
  let low := signed 32 (slice bytes (pad + 4) 4)
  let high := signed 32 (slice bytes (pad + 8) 4)
  if high < low then throw (.format (.badTableSwitch offset))
  let count := (high - low + 1).toNat
  needSwitch bytes (pad + 12) (4 * count) (offset + 1 + pad + 12)
  let jumps := signedWords count (bytes.drop (pad + 12))
  let targets := jumps.zipIdx.map fun (jump, i) => (low + i, offset + jump)
  return (.switch (offset + default) targets, pad + 12 + 4 * count)

def lookupSwitch (offset : Nat) (bytes : List UInt8) : Decoded (Operands × Nat) := do
  let pad := padding (offset + 1)
  needSwitch bytes pad 8 (offset + 1 + pad)
  let default := signed 32 (slice bytes pad 4)
  let size := signed 32 (slice bytes (pad + 4) 4)
  if size < 0 then throw (.format (.badLookupSwitch offset))
  let count := 2 * size.toNat
  needSwitch bytes (pad + 8) (4 * count) (offset + 1 + pad + 8)
  let words := signedWords count (bytes.drop (pad + 8))
  let targets := (pairUp words).map fun (key, jump) => (key, offset + jump)
  return (.switch (offset + default) (Table.ofPairs targets), pad + 8 + 4 * count)

def needOperands (mnemonic : String) (offset : Nat) (bytes : List UInt8) (count : Nat) :
    Decoded Unit :=
  if holds count bytes then .ok () else .error (.format (.truncatedInstruction mnemonic offset))

/-- The operands of the instruction at `offset`, from the bytes after its opcode, and how many of
these they take. -/
def decodeOperands (pool : Pool) (opcode : Opcode) (offset : Nat) (bytes : List UInt8) :
    Decoded (Operands × Nat) := do
  let need := needOperands opcode.mnemonic offset bytes
  match opcode.shape with
  | .plain => return (.none, 0)
  | .signedByte =>
    need 1
    return (.number (signed 8 (slice bytes 0 1)), 1)
  | .signedShort =>
    need 2
    return (.number (signed 16 (slice bytes 0 2)), 2)
  | .localIndex =>
    need 1
    return (.number (slice bytes 0 1), 1)
  | .shortConstant =>
    need 1
    return (.load (← ofPool (pool.literal (slice bytes 0 1))), 1)
  | .constant =>
    need 2
    return (.load (← ofPool (pool.literal (slice bytes 0 2))), 2)
  | .branch =>
    need 2
    return (.branch (offset + signed 16 (slice bytes 0 2)), 2)
  | .wideBranch =>
    need 4
    return (.branch (offset + signed 32 (slice bytes 0 4)), 4)
  | .increment =>
    need 2
    return (.increment (slice bytes 0 1) (signed 8 (slice bytes 1 1)), 2)
  | .field =>
    need 2
    let (owner, name, descriptor) ← ofPool (pool.memberRef (slice bytes 0 2))
    return (.field owner name descriptor, 2)
  | .method =>
    need 2
    return (.method (← ofPool (pool.methodRef (slice bytes 0 2))), 2)
  | .interfaceMethod =>
    need 4
    return (.method (← ofPool (pool.methodRef (slice bytes 0 2))), 4)
  | .dynamic =>
    need 4
    let (name, descriptor) ← ofPool (pool.invokeDynamic (slice bytes 0 2))
    return (.dynamic name descriptor, 4)
  | .type =>
    need 2
    return (.type (← ofPool (pool.className (slice bytes 0 2))), 2)
  | .arrayType =>
    need 1
    return (.arrayOf (arrayTypeName (slice bytes 0 1)), 1)
  | .multiArray =>
    need 3
    return (.multiArray (← ofPool (pool.className (slice bytes 0 2))) (slice bytes 2 1), 3)
  | .wide =>
    need 1
    let inner := slice bytes 0 1
    if inner = incrementCode then
      need 5
      return (.wideIncrement "iinc" (slice bytes 1 2) (signed 16 (slice bytes 3 2)), 5)
    else match mnemonic? inner with
      | none => throw (.unlistedWide inner)
      | some mnemonic =>
        need 3
        return (.wide mnemonic (slice bytes 1 2), 3)
  | .tableSwitch => tableSwitch offset bytes
  | .lookupSwitch => lookupSwitch offset bytes

def decodeOne (pool : Pool) (offset : Nat) (code : UInt8) (rest : List UInt8) :
    Decoded (Instruction × Nat) := do
  match opcode? code.toNat with
  | none => throw (.format (.unknownOpcode code.toNat offset))
  | some opcode =>
    let (operands, used) ← decodeOperands pool opcode offset rest
    return (⟨offset, code.toNat, opcode.mnemonic, operands⟩, used)

/-- The instructions up to the first that cannot be decoded, and why it cannot. -/
structure Trace where
  instructions : List Instruction
  failure : Option DecodeError

def traceFrom (pool : Pool) (offset : Nat) : List UInt8 → Trace
  | [] => ⟨[], none⟩
  | code :: rest =>
    match decodeOne pool offset code rest with
    | .error error => ⟨[], some error⟩
    | .ok (instruction, used) =>
      let trace := traceFrom pool (offset + 1 + used) (rest.drop used)
      ⟨instruction :: trace.instructions, trace.failure⟩
termination_by bytes => bytes.length
decreasing_by simp only [List.length_cons, List.length_drop]; omega

def trace (pool : Pool) (code : List UInt8) : Trace := traceFrom pool 0 code

def decode (pool : Pool) (code : List UInt8) : Decoded (List Instruction) :=
  let result := trace pool code
  match result.failure with
  | none => .ok result.instructions
  | some error => .error error

end CallAtlas.Bytecode
