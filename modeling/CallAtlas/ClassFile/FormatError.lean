import CallAtlas.Text.Quoted

/-!
What can be wrong with a class file or with the code of one of its methods.
-/

namespace CallAtlas.ClassFile

inductive FormatError where
  | truncated (offset : Nat)
  | shortBlock (wanted offset : Nat)
  | badMagic (magic : Nat) (path : String)
  | unknownTag (tag index : Nat)
  | badIndex (index : Int)
  | wrongTag (index tag : Nat) (expected : List Nat)
  | malformedText
  | charOutOfRange (value : Int)
  | unknownElement (tag : Nat)
  | unknownOpcode (opcode offset : Nat)
  | truncatedInstruction (mnemonic : String) (offset : Nat)
  | truncatedSwitch (offset : Nat)
  | badTableSwitch (offset : Nat)
  | badLookupSwitch (offset : Nat)
  deriving DecidableEq, Repr

def tagList (tags : List Nat) : String :=
  match tags with
  | [tag] => s!"({tag},)"
  | _ => "(" ++ ", ".intercalate (tags.map toString) ++ ")"

def FormatError.message : FormatError → String
  | truncated offset => s!"truncated class file at offset {offset}"
  | shortBlock wanted offset => s!"truncated class file: wanted {wanted} bytes at offset {offset}"
  | badMagic magic path => s!"bad magic 0x{Text.upperHex 8 magic} in {path}"
  | unknownTag tag index => s!"unknown constant pool tag {tag} at index {index}"
  | badIndex index => s!"bad constant pool index {index}"
  | wrongTag index tag expected =>
    s!"constant pool #{index} has tag {tag}, expected one of {tagList expected}"
  | malformedText => "malformed Utf8 constant"
  | charOutOfRange value => s!"char element value {value} out of range"
  | unknownElement tag =>
    s!"unknown annotation element tag {Text.quoted (String.singleton (Char.ofNat tag))}"
  | unknownOpcode opcode offset => s!"unknown opcode 0x{Text.lowerHex 2 opcode} at offset {offset}"
  | truncatedInstruction mnemonic offset => s!"truncated {mnemonic} at offset {offset}"
  | truncatedSwitch offset => s!"truncated switch table at offset {offset}"
  | badTableSwitch offset => s!"bad tableswitch bounds at offset {offset}"
  | badLookupSwitch offset => s!"bad lookupswitch size at offset {offset}"

end CallAtlas.ClassFile
