import CallAtlas.Bytecode.Instruction
import CallAtlas.Proofs.BigEndian
import CallAtlas.Proofs.PoolLookups

/-!
Instructions as they are laid out in bytes. Operands follow the opcode as big-endian numbers; those
of a switch begin at a multiple of four from the start of the code, after bytes that mean nothing.
-/

namespace CallAtlas.Bytecode

open ClassFile

/-- Operands before anything is looked up. Bytes that mean nothing are there with any values. -/
inductive RawOperands where
  | plain
  | signedByte (value : Int8)
  | signedShort (value : Int16)
  | localIndex (index : UInt8)
  | shortConstant (index : UInt8)
  | constant (index : UInt16)
  | branch (jump : Int16)
  | wideBranch (jump : Int32)
  | increment (index : UInt8) (amount : Int8)
  | field (index : UInt16)
  | method (index : UInt16)
  | interfaceMethod (index : UInt16) (count zero : UInt8)
  | dynamic (index zeros : UInt16)
  | type (index : UInt16)
  | arrayType (element : UInt8)
  | multiArray (index : UInt16) (dimensions : UInt8)
  | wide (inner : UInt8) (index : UInt16)
  | wideIncrement (index : UInt16) (amount : Int16)
  | tableSwitch (fill : Fin 3 → UInt8) (default low high : Int32) (jumps : List Int32)
  | lookupSwitch (fill : Fin 3 → UInt8) (default : Int32) (pairs : List (Int32 × Int32))

def wordBytes (value : Int32) : List UInt8 := bytesOf 4 value.toUInt32.toNat

def pairWords (pairs : List (Int32 × Int32)) : List Int32 :=
  pairs.flatMap fun pair => [pair.1, pair.2]

def fillBytes (fill : Fin 3 → UInt8) (offset : Nat) : List UInt8 :=
  (List.ofFn fill).take (3 - offset % 4)

namespace RawOperands

def shape : RawOperands → Shape
  | plain => .plain
  | signedByte _ => .signedByte
  | signedShort _ => .signedShort
  | localIndex _ => .localIndex
  | shortConstant _ => .shortConstant
  | constant _ => .constant
  | branch _ => .branch
  | wideBranch _ => .wideBranch
  | increment _ _ => .increment
  | field _ => .field
  | method _ => .method
  | interfaceMethod .. => .interfaceMethod
  | dynamic _ _ => .dynamic
  | type _ => .type
  | arrayType _ => .arrayType
  | multiArray _ _ => .multiArray
  | wide _ _ | wideIncrement _ _ => .wide
  | tableSwitch .. => .tableSwitch
  | lookupSwitch .. => .lookupSwitch

def bytes (offset : Nat) : RawOperands → List UInt8
  | plain => []
  | signedByte value => bytesOf 1 value.toUInt8.toNat
  | signedShort value | branch value => bytesOf 2 value.toUInt16.toNat
  | localIndex n | shortConstant n | arrayType n => bytesOf 1 n.toNat
  | constant n | field n | method n | type n => bytesOf 2 n.toNat
  | wideBranch jump => wordBytes jump
  | increment index amount => bytesOf 1 index.toNat ++ bytesOf 1 amount.toUInt8.toNat
  | interfaceMethod index count zero =>
    bytesOf 2 index.toNat ++ (bytesOf 1 count.toNat ++ bytesOf 1 zero.toNat)
  | dynamic index zeros => bytesOf 2 index.toNat ++ bytesOf 2 zeros.toNat
  | multiArray index dimensions => bytesOf 2 index.toNat ++ bytesOf 1 dimensions.toNat
  | wide inner index => bytesOf 1 inner.toNat ++ bytesOf 2 index.toNat
  | wideIncrement index amount =>
    bytesOf 1 incrementCode ++ (bytesOf 2 index.toNat ++ bytesOf 2 amount.toUInt16.toNat)
  | tableSwitch fill default low high jumps =>
    fillBytes fill offset ++
      (wordBytes default ++ (wordBytes low ++ (wordBytes high ++ jumps.flatMap wordBytes)))
  | lookupSwitch fill default pairs =>
    fillBytes fill offset ++
      (wordBytes default ++ (bytesOf 4 pairs.length ++ (pairWords pairs).flatMap wordBytes))

def Fits : RawOperands → Prop
  | wide inner _ => inner.toNat ≠ incrementCode
  | tableSwitch _ _ low high jumps =>
    low.toInt ≤ high.toInt ∧ (jumps.length : Int) = high.toInt - low.toInt + 1
  | lookupSwitch _ _ pairs => pairs.length < 0x80000000
  | _ => True

/-- What the operands of an instruction at `offset` stand for, if their indexes lead to constants of
the right sort. Jumps count from the instruction. -/
def operands? (pool : Pool) (offset : Nat) : RawOperands → Option Operands
  | plain => some .none
  | signedByte value => some (.number value.toInt)
  | signedShort value => some (.number value.toInt)
  | localIndex index => some (.number index.toNat)
  | shortConstant index => (pool.literal? index.toNat).map .load
  | constant index => (pool.literal? index.toNat).map .load
  | branch jump => some (.branch (offset + jump.toInt))
  | wideBranch jump => some (.branch (offset + jump.toInt))
  | increment index amount => some (.increment index.toNat amount.toInt)
  | field index =>
    (pool.memberRef? index.toNat).map fun (owner, name, descriptor) => .field owner name descriptor
  | method index | interfaceMethod index _ _ => (pool.methodRef? index.toNat).map .method
  | dynamic index _ =>
    (pool.callSite? index.toNat).map fun (name, descriptor) => .dynamic name descriptor
  | type index => (pool.class? index.toNat).map .type
  | arrayType element => some (.arrayOf (arrayTypeName element.toNat))
  | multiArray index dimensions =>
    (pool.class? index.toNat).map fun name => .multiArray name dimensions.toNat
  | wide inner index => (mnemonic? inner.toNat).map fun mnemonic => .wide mnemonic index.toNat
  | wideIncrement index amount => some (.wideIncrement "iinc" index.toNat amount.toInt)
  | tableSwitch _ default low _ jumps =>
    some (.switch (offset + default.toInt)
      (jumps.mapIdx fun i jump => (low.toInt + i, offset + jump.toInt)))
  | lookupSwitch _ default pairs =>
    some (.switch (offset + default.toInt)
      (Table.ofPairs (pairs.map fun (key, jump) => (key.toInt, offset + jump.toInt))))

end RawOperands

structure RawInstruction where
  code : UInt8
  operands : RawOperands

namespace RawInstruction

def bytes (offset : Nat) (raw : RawInstruction) : List UInt8 :=
  raw.code :: raw.operands.bytes offset

/-- The operands are those that the opcode has, their numbers fit and their indexes lead to what
they need. -/
structure Valid (pool : Pool) (raw : RawInstruction) : Prop where
  listed : (opcode? raw.code.toNat).map Opcode.shape = some raw.operands.shape
  fits : raw.operands.Fits
  resolved : ∀ offset, (raw.operands.operands? pool offset).isSome

def Denotes (pool : Pool) (offset : Nat) (raw : RawInstruction)
    (instruction : Instruction) : Prop :=
  instruction.offset = offset ∧ instruction.code = raw.code.toNat ∧
    mnemonic? raw.code.toNat = some instruction.mnemonic ∧
    raw.operands.operands? pool offset = some instruction.operands

end RawInstruction

def assembleFrom (offset : Nat) : List RawInstruction → List UInt8
  | [] => []
  | raw :: rest => raw.bytes offset ++ assembleFrom (offset + (raw.bytes offset).length) rest

def assemble (raws : List RawInstruction) : List UInt8 := assembleFrom 0 raws

end CallAtlas.Bytecode
