import CallAtlas.ClassFile.ModifiedUtf8
import CallAtlas.ClassFile.Reader
import CallAtlas.Decimal.Double

/-!
The constant pool: numbered constants that the rest of a class file refers to. Number 0 is unused
and a long or double constant takes two numbers.
-/

namespace CallAtlas.ClassFile

open Decimal

inductive Constant where
  | utf8 (text : String)
  | integer (value : Int)
  | single (value : Double)
  | long (value : Int)
  | double (value : Double)
  | classRef (name : Nat)
  | string (text : Nat)
  | field (owner nameAndType : Nat)
  | method (owner nameAndType : Nat)
  | interfaceMethod (owner nameAndType : Nat)
  | nameAndType (name descriptor : Nat)
  | methodHandle (kind reference : Nat)
  | methodType (descriptor : Nat)
  | dynamic (bootstrap nameAndType : Nat)
  | invokeDynamic (bootstrap nameAndType : Nat)
  | module (name : Nat)
  | package (name : Nat)
  deriving DecidableEq, Repr

namespace Constant

def tag : Constant → Nat
  | utf8 _ => 1
  | integer _ => 3
  | single _ => 4
  | long _ => 5
  | double _ => 6
  | classRef _ => 7
  | string _ => 8
  | field .. => 9
  | method .. => 10
  | interfaceMethod .. => 11
  | nameAndType .. => 12
  | methodHandle .. => 15
  | methodType _ => 16
  | dynamic .. => 17
  | invokeDynamic .. => 18
  | module _ => 19
  | package _ => 20

def isWide : Constant → Bool
  | long _ | double _ => true
  | _ => false

end Constant

inductive Literal where
  | int (value : Int)
  | float (value : Double)
  | text (value : String)
  | type (descriptor : String)
  | marker (text : String)
  deriving DecidableEq, Repr

namespace Constant

def value : Constant → Literal
  | utf8 text => .text text
  | integer value | long value => .int value
  | single value | double value => .float value
  | classRef n | string n | methodType n | module n | package n => .int n
  | field n _ | method n _ | interfaceMethod n _ | nameAndType n _ | methodHandle n _
  | dynamic n _ | invokeDynamic n _ => .int n

def second? : Constant → Option Nat
  | field _ n | method _ n | interfaceMethod _ n | nameAndType _ n | methodHandle _ n
  | dynamic _ n | invokeDynamic _ n => some n
  | _ => none

end Constant

structure MethodRef where
  owner : String
  name : String
  descriptor : String
  isInterface : Bool
  deriving DecidableEq, Repr

/-- The numbered places of a pool; those without a constant are empty. -/
structure Pool where
  slots : List (Option Constant)
  deriving DecidableEq, Repr

namespace Pool

def empty : Pool := ⟨[]⟩

def size (pool : Pool) : Nat := pool.slots.length

def index (i : Int) : Except FormatError Nat :=
  if i < 0 then .error (.badIndex i) else .ok i.toNat

/-- The constant with a number. The first place is never looked at. -/
def constant? (pool : Pool) (i : Nat) : Option Constant :=
  if i = 0 then none else (pool.slots[i]?).join

def entry (pool : Pool) (i : Nat) : Except FormatError Constant :=
  match pool.constant? i with
  | some constant => .ok constant
  | none => .error (.badIndex i)

def utf8 (pool : Pool) (i : Nat) : Except FormatError String := do
  match ← pool.entry i with
  | .utf8 text => return text
  | constant => throw (.wrongTag i constant.tag [1])

def className (pool : Pool) (i : Nat) : Except FormatError String := do
  match ← pool.entry i with
  | .classRef name => pool.utf8 name
  | constant => throw (.wrongTag i constant.tag [7])

def nameAndType (pool : Pool) (i : Nat) : Except FormatError (String × String) := do
  match ← pool.entry i with
  | .nameAndType name descriptor => return (← pool.utf8 name, ← pool.utf8 descriptor)
  | constant => throw (.wrongTag i constant.tag [12])

/-- Owner, name and descriptor; the name and descriptor are looked up first. -/
def member (pool : Pool) (owner nameAndType : Nat) :
    Except FormatError (String × String × String) := do
  let (name, descriptor) ← pool.nameAndType nameAndType
  return (← pool.className owner, name, descriptor)

def memberRef (pool : Pool) (i : Nat) : Except FormatError (String × String × String) := do
  match ← pool.entry i with
  | .field owner nat | .method owner nat | .interfaceMethod owner nat => pool.member owner nat
  | constant => throw (.wrongTag i constant.tag [9, 10, 11])

def methodRef (pool : Pool) (i : Nat) : Except FormatError MethodRef := do
  match ← pool.entry i with
  | .method owner nat =>
    let (owner, name, descriptor) ← pool.member owner nat
    return ⟨owner, name, descriptor, false⟩
  | .interfaceMethod owner nat =>
    let (owner, name, descriptor) ← pool.member owner nat
    return ⟨owner, name, descriptor, true⟩
  | constant => throw (.wrongTag i constant.tag [10, 11])

def invokeDynamic (pool : Pool) (i : Nat) : Except FormatError (String × String) := do
  match ← pool.entry i with
  | .invokeDynamic _ nat => pool.nameAndType nat
  | constant => throw (.wrongTag i constant.tag [18])

def integer (pool : Pool) (i : Nat) : Except FormatError Int := do
  match ← pool.entry i with
  | .integer value => return value
  | constant => throw (.wrongTag i constant.tag [3])

def single (pool : Pool) (i : Nat) : Except FormatError Double := do
  match ← pool.entry i with
  | .single value => return value
  | constant => throw (.wrongTag i constant.tag [4])

def long (pool : Pool) (i : Nat) : Except FormatError Int := do
  match ← pool.entry i with
  | .long value => return value
  | constant => throw (.wrongTag i constant.tag [5])

def double (pool : Pool) (i : Nat) : Except FormatError Double := do
  match ← pool.entry i with
  | .double value => return value
  | constant => throw (.wrongTag i constant.tag [6])

def constant (pool : Pool) (i tag : Nat) : Except FormatError Literal := do
  let found ← pool.entry i
  if found.tag = tag then return found.value else throw (.wrongTag i found.tag [tag])

def literal (pool : Pool) (i : Nat) : Except FormatError Literal := do
  match ← pool.entry i with
  | .integer value | .long value => return .int value
  | .single value | .double value => return .float value
  | .string text => return .text (← pool.utf8 text)
  | .classRef name => return .type (← pool.utf8 name)
  | .methodType descriptor => return .type (← pool.utf8 descriptor)
  | .dynamic _ nat =>
    let (name, descriptor) ← pool.nameAndType nat
    return .marker s!"#dynamic {name} {descriptor}"
  | other => return .marker s!"#{other.tag}"

end Pool

open Reader

def readPair : Reader (Nat × Nat) := do
  need 4
  return (← u2, ← u2)

def readConstant (index : Nat) : Reader Constant := do
  match ← u1 with
  | 1 => return .utf8 (← ModifiedUtf8.decode (← block (← u2)))
  | 3 => return .integer (signed 32 (← u4))
  | 4 => return .single (Double.ofSingle (← u4).toUInt32)
  | 5 => return .long (signed 64 (← number 8))
  | 6 => return .double ⟨(← number 8).toUInt64⟩
  | 7 => return .classRef (← u2)
  | 8 => return .string (← u2)
  | 9 => let (owner, nat) ← readPair; return .field owner nat
  | 10 => let (owner, nat) ← readPair; return .method owner nat
  | 11 => let (owner, nat) ← readPair; return .interfaceMethod owner nat
  | 12 => let (name, descriptor) ← readPair; return .nameAndType name descriptor
  | 15 => need 3; return .methodHandle (← u1) (← u2)
  | 16 => return .methodType (← u2)
  | 17 => let (bootstrap, nat) ← readPair; return .dynamic bootstrap nat
  | 18 => let (bootstrap, nat) ← readPair; return .invokeDynamic bootstrap nat
  | 19 => return .module (← u2)
  | 20 => return .package (← u2)
  | tag => fail (.unknownTag tag index)

def readSlots : (places index : Nat) → Reader (List (Option Constant))
  | 0, _ => pure []
  | 1, index => do return [some (← readConstant index)]
  | places + 2, index => do
    let constant ← readConstant index
    if constant.isWide then
      return some constant :: none :: (← readSlots places (index + 2))
    else
      return some constant :: (← readSlots (places + 1) (index + 1))

def readPool : Reader Pool := do
  match ← u2 with
  | 0 => return ⟨[]⟩
  | places + 1 => return ⟨none :: (← readSlots places 1)⟩

end CallAtlas.ClassFile
