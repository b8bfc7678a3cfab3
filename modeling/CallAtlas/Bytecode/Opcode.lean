/-!
The opcodes of the virtual machine: their mnemonics and the form of their operands.
-/

namespace CallAtlas.Bytecode

inductive Shape where
  | plain
  | signedByte
  | signedShort
  | localIndex
  | shortConstant
  | constant
  | branch
  | wideBranch
  | increment
  | field
  | method
  | interfaceMethod
  | dynamic
  | type
  | arrayType
  | multiArray
  | wide
  | tableSwitch
  | lookupSwitch
  deriving DecidableEq, Repr

structure Opcode where
  mnemonic : String
  shape : Shape
  deriving DecidableEq, Repr

structure OpcodeRow where
  first : Nat
  mnemonics : List String
  shape : Shape

def opcodeRows : List OpcodeRow := [
  ⟨0x00, ["nop", "aconst_null", "iconst_m1", "iconst_0", "iconst_1", "iconst_2",
    "iconst_3", "iconst_4", "iconst_5", "lconst_0", "lconst_1", "fconst_0", "fconst_1", "fconst_2",
    "dconst_0", "dconst_1"], .plain⟩, ⟨0x10, ["bipush"], .signedByte⟩,
  ⟨0x11, ["sipush"], .signedShort⟩,
  ⟨0x12, ["ldc"], .shortConstant⟩,
  ⟨0x13, ["ldc_w", "ldc2_w"], .constant⟩,
  ⟨0x15, ["iload", "lload", "fload", "dload", "aload"], .localIndex⟩,
  ⟨0x1A, ["iload_0", "iload_1", "iload_2", "iload_3", "lload_0", "lload_1", "lload_2", "lload_3",
    "fload_0", "fload_1", "fload_2", "fload_3", "dload_0", "dload_1", "dload_2", "dload_3",
    "aload_0", "aload_1", "aload_2", "aload_3"], .plain⟩,
  ⟨0x2E, ["iaload", "laload", "faload", "daload", "aaload", "baload", "caload", "saload"], .plain⟩,
  ⟨0x36, ["istore", "lstore", "fstore", "dstore", "astore"], .localIndex⟩,
  ⟨0x3B, ["istore_0", "istore_1", "istore_2", "istore_3", "lstore_0", "lstore_1",
    "lstore_2", "lstore_3", "fstore_0", "fstore_1", "fstore_2", "fstore_3", "dstore_0", "dstore_1",
    "dstore_2", "dstore_3", "astore_0", "astore_1", "astore_2", "astore_3"], .plain⟩,
  ⟨0x4F, ["iastore", "lastore", "fastore", "dastore", "aastore", "bastore", "castore", "sastore",
    "pop", "pop2", "dup", "dup_x1", "dup_x2", "dup2", "dup2_x1", "dup2_x2", "swap",
    "iadd", "ladd", "fadd", "dadd", "isub", "lsub", "fsub", "dsub", "imul", "lmul", "fmul", "dmul",
    "idiv", "ldiv", "fdiv", "ddiv", "irem", "lrem", "frem", "drem", "ineg", "lneg", "fneg", "dneg",
    "ishl", "lshl", "ishr", "lshr", "iushr", "lushr", "iand", "land", "ior", "lor", "ixor", "lxor"],
    .plain⟩, ⟨0x84, ["iinc"], .increment⟩,
  ⟨0x85, ["i2l", "i2f", "i2d", "l2i", "l2f", "l2d", "f2i", "f2l", "f2d", "d2i", "d2l", "d2f",
    "i2b", "i2c", "i2s", "lcmp", "fcmpl", "fcmpg", "dcmpl", "dcmpg"], .plain⟩,
  ⟨0x99, ["ifeq", "ifne", "iflt", "ifge", "ifgt", "ifle", "if_icmpeq", "if_icmpne", "if_icmplt",
    "if_icmpge", "if_icmpgt", "if_icmple", "if_acmpeq", "if_acmpne", "goto", "jsr"], .branch⟩,
  ⟨0xA9, ["ret"], .localIndex⟩,
  ⟨0xAA, ["tableswitch"], .tableSwitch⟩,
  ⟨0xAB, ["lookupswitch"], .lookupSwitch⟩,
  ⟨0xAC, ["ireturn", "lreturn", "freturn", "dreturn", "areturn", "return"], .plain⟩,
  ⟨0xB2, ["getstatic", "putstatic", "getfield", "putfield"], .field⟩,
  ⟨0xB6, ["invokevirtual", "invokespecial", "invokestatic"], .method⟩,
  ⟨0xB9, ["invokeinterface"], .interfaceMethod⟩,
  ⟨0xBA, ["invokedynamic"], .dynamic⟩,
  ⟨0xBB, ["new"], .type⟩,
  ⟨0xBC, ["newarray"], .arrayType⟩,
  ⟨0xBD, ["anewarray"], .type⟩,
  ⟨0xBE, ["arraylength", "athrow"], .plain⟩,
  ⟨0xC0, ["checkcast", "instanceof"], .type⟩,
  ⟨0xC2, ["monitorenter", "monitorexit"], .plain⟩,
  ⟨0xC4, ["wide"], .wide⟩,
  ⟨0xC5, ["multianewarray"], .multiArray⟩,
  ⟨0xC6, ["ifnull", "ifnonnull"], .branch⟩,
  ⟨0xC8, ["goto_w", "jsr_w"], .wideBranch⟩]

def OpcodeRow.find? (row : OpcodeRow) (code : Nat) : Option Opcode :=
  if code < row.first then none
    else row.mnemonics[code - row.first]?.map fun name => ⟨name, row.shape⟩

def opcode? (code : Nat) : Option Opcode :=
  opcodeRows.findSome? fun row => row.find? code

def mnemonic? (code : Nat) : Option String := (opcode? code).map Opcode.mnemonic

/-- The opcode that increments a local variable, the only one that is laid out in its own way when
widened. -/
def incrementCode : Nat := 0x84

def arrayTypeName (code : Nat) : String :=
  match code with
  | 4 => "T_BOOLEAN"
  | 5 => "T_CHAR"
  | 6 => "T_FLOAT"
  | 7 => "T_DOUBLE"
  | 8 => "T_BYTE"
  | 9 => "T_SHORT"
  | 10 => "T_INT"
  | 11 => "T_LONG"
  | _ => toString code

end CallAtlas.Bytecode
