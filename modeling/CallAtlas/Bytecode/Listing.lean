import CallAtlas.Bytecode.Instruction
import CallAtlas.ClassFile.CompiledType

/-!
The listing of a method's code: one line per instruction, then the sizes of its frame.
-/

namespace CallAtlas.Bytecode

open ClassFile

def padLeft (width : Nat) (s : String) : String :=
  String.ofList (List.replicate (width - s.length) ' ') ++ s

def Literal.text : Literal → String
  | .int value => toString value
  | .float value => value.text
  | .text value => value
  | .type descriptor => descriptor ++ ".class"
  | .marker text => text

def loadText : Literal → String
  | .text value => "\"" ++ value ++ "\""
  | other => Literal.text other

def methodText (ref : MethodRef) : String :=
  s!"{ref.owner}.{ref.name} {ref.descriptor}" ++ if ref.isInterface then " (itf)" else ""

def switchText (targets : Table Int Int) : String :=
  let sorted := targets.mergeSort fun a b => a.1 ≤ b.1
  "\x7b" ++ ", ".intercalate (sorted.map fun (key, target) => s!"{key}: L{target}") ++ "\x7d"

def Operands.text : Operands → String
  | .none => ""
  | .number value => toString value
  | .load value => loadText value
  | .branch target => s!"L{target}"
  | .increment index amount => s!"{index} {amount}"
  | .field owner name descriptor => s!"{owner}.{name} : {descriptor}"
  | .method ref => methodText ref
  | .dynamic name descriptor => s!"{name} {descriptor}"
  | .type name => name
  | .arrayOf element => element
  | .multiArray name dimensions => s!"{name} {dimensions}"
  | .wide mnemonic index => s!"{mnemonic} {index}"
  | .wideIncrement mnemonic index amount => s!"{mnemonic} {index} {amount}"
  | .switch default targets => s!"{switchText targets} default: L{default}"

def Instruction.text (instruction : Instruction) : String :=
  let operands := instruction.operands.text
  padLeft 5 (toString instruction.offset) ++ ": " ++ instruction.mnemonic.map Char.toUpper ++
    if operands.isEmpty then "" else " " ++ operands

def listing (pool : Pool) (method : CompiledMethod) : Decoded String := do
  match method.code with
  | none => return ""
  | some code =>
    let lines := (← decode pool code).map Instruction.text
    return "\n".intercalate
      (lines ++ [s!"MAXSTACK = {method.maxStack}", s!"MAXLOCALS = {method.maxLocals}"])

end CallAtlas.Bytecode
