import CallAtlas.ClassFile.CompiledType
import CallAtlas.Proofs.BigEndian
import CallAtlas.Proofs.PoolLookups

/-!
Class files as data. Indexes, counts and lengths are written as big-endian numbers, lists with their
length before them. What a description stands for is read off its own constant pool.
-/

namespace CallAtlas.ClassFile

def listBytes {α : Type} (item : α → List UInt8) (items : List α) : List UInt8 :=
  bytesOf 2 items.length ++ items.flatMap item

def charUnits (c : Char) : List UInt16 :=
  if c.toNat < 0x10000 then [c.toNat.toUInt16]
  else [(0xD800 + (c.toNat - 0x10000) / 0x400).toUInt16,
    (0xDC00 + (c.toNat - 0x10000) % 0x400).toUInt16]

def textUnits (text : String) : List UInt16 := text.toList.flatMap charUnits

def unitBytes (unit : UInt16) : List UInt8 :=
  if unit = 0 then [0xC0, 0x80] else Text.encodeCode unit.toNat

def textBytes (units : List UInt16) : List UInt8 := units.flatMap unitBytes

inductive ConstantInfo where
  | utf8 (units : List UInt16)
  | integer (value : Int32)
  | single (bits : UInt32)
  | long (value : Int64)
  | double (bits : UInt64)
  | classRef (name : UInt16)
  | string (text : UInt16)
  | field (owner nameAndType : UInt16)
  | method (owner nameAndType : UInt16)
  | interfaceMethod (owner nameAndType : UInt16)
  | nameAndType (name descriptor : UInt16)
  | methodHandle (kind : UInt8) (reference : UInt16)
  | methodType (descriptor : UInt16)
  | dynamic (bootstrap nameAndType : UInt16)
  | invokeDynamic (bootstrap nameAndType : UInt16)
  | module (name : UInt16)
  | package (name : UInt16)

namespace ConstantInfo

def constant : ConstantInfo → Constant
  | utf8 units => .utf8 (String.ofList (ModifiedUtf8.pairSurrogates (units.map UInt16.toNat)))
  | integer value => .integer value.toInt
  | single bits => .single (Decimal.Double.ofSingle bits)
  | long value => .long value.toInt
  | double bits => .double ⟨bits⟩
  | classRef name => .classRef name.toNat
  | string text => .string text.toNat
  | field owner nat => .field owner.toNat nat.toNat
  | method owner nat => .method owner.toNat nat.toNat
  | interfaceMethod owner nat => .interfaceMethod owner.toNat nat.toNat
  | nameAndType name descriptor => .nameAndType name.toNat descriptor.toNat
  | methodHandle kind reference => .methodHandle kind.toNat reference.toNat
  | methodType descriptor => .methodType descriptor.toNat
  | dynamic bootstrap nat => .dynamic bootstrap.toNat nat.toNat
  | invokeDynamic bootstrap nat => .invokeDynamic bootstrap.toNat nat.toNat
  | module name => .module name.toNat
  | package name => .package name.toNat

def fields : ConstantInfo → List UInt8
  | utf8 units => bytesOf 2 (textBytes units).length ++ textBytes units
  | integer value => bytesOf 4 value.toUInt32.toNat
  | single bits => bytesOf 4 bits.toNat
  | long value => bytesOf 8 value.toUInt64.toNat
  | double bits => bytesOf 8 bits.toNat
  | classRef n | string n | methodType n | module n | package n => bytesOf 2 n.toNat
  | field m n | method m n | interfaceMethod m n | nameAndType m n | dynamic m n |
    invokeDynamic m n =>
    bytesOf 2 m.toNat ++ bytesOf 2 n.toNat
  | methodHandle kind reference => bytesOf 1 kind.toNat ++ bytesOf 2 reference.toNat

def bytes (info : ConstantInfo) : List UInt8 := bytesOf 1 info.constant.tag ++ info.fields

def Fits : ConstantInfo → Prop
  | utf8 units => (textBytes units).length < 0x10000
  | _ => True

end ConstantInfo

/-- The places that constants take: a long or double constant is followed by an empty place. -/
def slotsOf (constants : List ConstantInfo) : List (Option Constant) :=
  constants.flatMap fun info =>
    if info.constant.isWide then [some info.constant, none] else [some info.constant]

def poolOf (constants : List ConstantInfo) : Pool := ⟨none :: slotsOf constants⟩

inductive ConstantKind where
  | byte
  | char
  | double
  | float
  | int
  | long
  | short
  | boolean
  | string
  | type

def ConstantKind.letter : ConstantKind → Char
  | byte => 'B'
  | char => 'C'
  | double => 'D'
  | float => 'F'
  | int => 'I'
  | long => 'J'
  | short => 'S'
  | boolean => 'Z'
  | string => 's'
  | type => 'c'

def ConstantKind.element? : ConstantKind → Constant → Option Element
  | byte, .integer value | int, .integer value | short, .integer value => some (.int value)
  | char, .integer value => if 0 ≤ value ∧ value ≤ 0xFFFF then some (.char value.toNat) else none
  | boolean, .integer value => some (.bool (value != 0))
  | long, .long value => some (.int value)
  | float, .single value => some (.float value)
  | double, .double value => some (.float value)
  | string, .utf8 text => some (.text text)
  | type, .utf8 text => some (.type text)
  | _, _ => none

inductive ElementInfo where
  | constant (kind : ConstantKind) (index : UInt16)
  | enum (type constant : UInt16)
  | nested (type : UInt16) (pairs : List (UInt16 × ElementInfo))
  | array (items : List ElementInfo)

mutual

def ElementInfo.bytes : ElementInfo → List UInt8
  | .constant kind index => bytesOf 1 kind.letter.toNat ++ bytesOf 2 index.toNat
  | .enum type constant => bytesOf 1 'e'.toNat ++ bytesOf 2 type.toNat ++ bytesOf 2 constant.toNat
  | .nested type pairs =>
    bytesOf 1 '@'.toNat ++ bytesOf 2 type.toNat ++ bytesOf 2 pairs.length ++ pairsBytes pairs
  | .array items => bytesOf 1 '['.toNat ++ bytesOf 2 items.length ++ itemsBytes items

def pairsBytes : List (UInt16 × ElementInfo) → List UInt8
  | [] => []
  | (name, value) :: rest => bytesOf 2 name.toNat ++ value.bytes ++ pairsBytes rest

def itemsBytes : List ElementInfo → List UInt8
  | [] => []
  | item :: rest => item.bytes ++ itemsBytes rest

end

mutual

def ElementInfo.element? (pool : Pool) : ElementInfo → Option Element
  | .constant kind index => do kind.element? (← pool.constant? index.toNat)
  | .enum type constant => do
    return .enum (descriptorName (← pool.text? type.toNat)) (← pool.text? constant.toNat)
  | .nested type pairs => do
    return .nested (descriptorName (← pool.text? type.toNat))
      (Table.ofPairs (← pairElements? pool pairs)) true
  | .array items => do return .array (← itemElements? pool items)

def pairElements? (pool : Pool) : List (UInt16 × ElementInfo) → Option (List (String × Element))
  | [] => some []
  | (name, value) :: rest => do
    return (← pool.text? name.toNat, ← value.element? pool) :: (← pairElements? pool rest)

def itemElements? (pool : Pool) : List ElementInfo → Option (List Element)
  | [] => some []
  | item :: rest => do return (← item.element? pool) :: (← itemElements? pool rest)

end

mutual

def ElementInfo.Fits : ElementInfo → Prop
  | .constant _ _ => True
  | .enum _ _ => True
  | .nested _ pairs => pairs.length < 0x10000 ∧ PairsFit pairs
  | .array items => items.length < 0x10000 ∧ ItemsFit items

def PairsFit : List (UInt16 × ElementInfo) → Prop
  | [] => True
  | (_, value) :: rest => value.Fits ∧ PairsFit rest

def ItemsFit : List ElementInfo → Prop
  | [] => True
  | item :: rest => item.Fits ∧ ItemsFit rest

end

structure AnnotationInfo where
  type : UInt16
  pairs : List (UInt16 × ElementInfo)

namespace AnnotationInfo

def bytes (info : AnnotationInfo) : List UInt8 :=
  bytesOf 2 info.type.toNat ++ bytesOf 2 info.pairs.length ++ pairsBytes info.pairs

def use? (pool : Pool) (visible : Bool) (info : AnnotationInfo) : Option AnnotationUse := do
  return ⟨descriptorName (← pool.text? info.type.toNat),
    Table.ofPairs (← pairElements? pool info.pairs), visible⟩

def Fits (info : AnnotationInfo) : Prop := info.pairs.length < 0x10000 ∧ PairsFit info.pairs

end AnnotationInfo

def annotationAttribute : (visible : Bool) → String
  | true => "RuntimeVisibleAnnotations"
  | false => "RuntimeInvisibleAnnotations"

inductive Content (α : Type) where
  | facts (value : α)
  | annotations (visible : Bool) (uses : List AnnotationInfo)
  | other (payload : List UInt8)

structure AttributeInfo (α : Type) where
  name : UInt16
  content : Content α

/-- How facts are named and written, and what they stand for. -/
structure FactsFormat (α β : Type) where
  name : String
  bytes : α → List UInt8
  facts? : Pool → α → Option β

namespace AttributeInfo

variable {α β : Type}

def payload (format : FactsFormat α β) (info : AttributeInfo α) : List UInt8 :=
  match info.content with
  | .facts value => format.bytes value
  | .annotations _ uses => listBytes AnnotationInfo.bytes uses
  | .other payload => payload

def bytes (format : FactsFormat α β) (info : AttributeInfo α) : List UInt8 :=
  bytesOf 2 info.name.toNat ++ bytesOf 4 (info.payload format).length ++ info.payload format

/-- The annotations and the facts in an attribute whose name is that of its content; bytes that are
left out may have any name that is not known. -/
def parts? (format : FactsFormat α β) (pool : Pool) (info : AttributeInfo α) :
    Option (List AnnotationUse × Option β) := do
  let name ← pool.text? info.name.toNat
  match info.content with
  | .facts value =>
    if name = format.name then return ([], some (← format.facts? pool value)) else none
  | .annotations visible uses =>
    if name = annotationAttribute visible
      then return (← uses.mapM (AnnotationInfo.use? pool visible), none) else none
  | .other _ =>
    if name ∈ [format.name, annotationAttribute true, annotationAttribute false] then none
      else return ([], none)

def Fits (format : FactsFormat α β) (info : AttributeInfo α) : Prop :=
  (info.payload format).length < 0x100000000 ∧
  match info.content with
  | .annotations _ uses => uses.length < 0x10000 ∧ ∀ use ∈ uses, use.Fits
  | _ => True

end AttributeInfo

def allUses {β : Type} (parts : List (List AnnotationUse × Option β)) : List AnnotationUse :=
  parts.flatMap Prod.fst

def lastFacts {β : Type} (parts : List (List AnnotationUse × Option β)) : Option β :=
  (parts.filterMap Prod.snd).getLast?

structure FieldInfo where
  access : UInt16
  name : UInt16
  descriptor : UInt16
  attributes : List (UInt16 × List UInt8)

namespace FieldInfo

def bytes (info : FieldInfo) : List UInt8 :=
  bytesOf 2 info.access.toNat ++ bytesOf 2 info.name.toNat ++ bytesOf 2 info.descriptor.toNat ++
    listBytes (fun item => bytesOf 2 item.1.toNat ++ bytesOf 4 item.2.length ++ item.2)
      info.attributes

def Fits (info : FieldInfo) : Prop :=
  info.attributes.length < 0x10000 ∧ ∀ item ∈ info.attributes, item.2.length < 0x100000000

end FieldInfo

/-- The code of a method. The bytes after it hold the exception table and further attributes. -/
structure CodeInfo where
  maxStack : UInt16
  maxLocals : UInt16
  code : List UInt8
  tail : List UInt8

def codeFormat : FactsFormat CodeInfo Body where
  name := "Code"
  bytes info :=
    bytesOf 2 info.maxStack.toNat ++ bytesOf 2 info.maxLocals.toNat ++ bytesOf 4 info.code.length ++
    info.code ++ info.tail
  facts? _ info := some ⟨info.maxStack.toNat, info.maxLocals.toNat, info.code⟩

structure MethodInfo where
  access : UInt16
  name : UInt16
  descriptor : UInt16
  attributes : List (AttributeInfo CodeInfo)

namespace MethodInfo

def bytes (info : MethodInfo) : List UInt8 :=
  bytesOf 2 info.access.toNat ++ bytesOf 2 info.name.toNat ++ bytesOf 2 info.descriptor.toNat ++
    listBytes (AttributeInfo.bytes codeFormat) info.attributes

def method? (pool : Pool) (info : MethodInfo) : Option CompiledMethod := do
  let parts ← info.attributes.mapM (AttributeInfo.parts? codeFormat pool)
  let body := lastFacts parts
  return {
    name := ← pool.text? info.name.toNat
    descriptor := ← pool.text? info.descriptor.toNat
    access := info.access.toNat
    annotations := allUses parts
    code := body.map Body.code
    maxStack := (body.map Body.maxStack).getD 0
    maxLocals := (body.map Body.maxLocals).getD 0 }

def Fits (info : MethodInfo) : Prop :=
  info.attributes.length < 0x10000 ∧ ∀ item ∈ info.attributes, item.Fits codeFormat

end MethodInfo

def sourceFormat : FactsFormat UInt16 String where
  name := "SourceFile"
  bytes index := bytesOf 2 index.toNat
  facts? pool index := pool.text? index.toNat

structure TypeInfo where
  minor : UInt16
  major : UInt16
  constants : List ConstantInfo
  access : UInt16
  this : UInt16
  super : UInt16
  interfaces : List UInt16
  fields : List FieldInfo
  methods : List MethodInfo
  attributes : List (AttributeInfo UInt16)

namespace TypeInfo

def pool (info : TypeInfo) : Pool := poolOf info.constants

def bytes (info : TypeInfo) : List UInt8 :=
  bytesOf 4 0xCAFEBABE ++ bytesOf 2 info.minor.toNat ++ bytesOf 2 info.major.toNat ++
    bytesOf 2 info.pool.size ++ info.constants.flatMap ConstantInfo.bytes ++
    bytesOf 2 info.access.toNat ++ bytesOf 2 info.this.toNat ++ bytesOf 2 info.super.toNat ++
    listBytes (fun index => bytesOf 2 index.toNat) info.interfaces ++
    listBytes FieldInfo.bytes info.fields ++
    listBytes MethodInfo.bytes info.methods ++
    listBytes (AttributeInfo.bytes sourceFormat) info.attributes

def superName? (info : TypeInfo) : Option (Option String) :=
  if info.super = 0 then some none else (info.pool.class? info.super.toNat).map some

/-- The type that a description stands for, if all its indexes point at constants of the right sort,
its characters are in range and its attributes are named for their contents. -/
def type? (path : String) (info : TypeInfo) : Option CompiledType := do
  let name ← info.pool.class? info.this.toNat
  let superName ← info.superName?
  let interfaces ← info.interfaces.mapM fun index => info.pool.class? index.toNat
  let _ ← info.fields.mapM fun field => field.attributes.mapM fun item =>
      info.pool.text? item.1.toNat
  let methods ← info.methods.mapM (MethodInfo.method? info.pool)
  let parts ← info.attributes.mapM (AttributeInfo.parts? sourceFormat info.pool)
  return {
    name := dotted name
    path
    access := info.access.toNat
    superName := superName.map dotted
    interfaces := interfaces.map dotted
    methods
    annotations := allUses parts
    sourceFile := lastFacts parts
    pool := info.pool }

structure Fits (info : TypeInfo) : Prop where
  pool : info.pool.size < 0x10000
  constants : ∀ constant ∈ info.constants, constant.Fits
  interfaces : info.interfaces.length < 0x10000
  fields : info.fields.length < 0x10000
  eachField : ∀ field ∈ info.fields, field.Fits
  methods : info.methods.length < 0x10000
  eachMethod : ∀ method ∈ info.methods, method.Fits
  attributes : info.attributes.length < 0x10000
  eachAttribute : ∀ item ∈ info.attributes, item.Fits sourceFormat

end TypeInfo

end CallAtlas.ClassFile
