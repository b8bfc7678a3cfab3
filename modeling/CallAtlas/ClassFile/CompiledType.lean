import CallAtlas.ClassFile.Annotations

/-!
Compiled types: what a class file says about a type and its methods.
-/

namespace CallAtlas.ClassFile

structure CompiledMethod where
  name : String
  descriptor : String
  access : Nat
  annotations : List AnnotationUse := []
  code : Option (List UInt8) := none
  maxStack : Nat := 0
  maxLocals : Nat := 0

structure CompiledType where
  name : String
  path : String
  access : Nat
  superName : Option String
  interfaces : List String
  methods : List CompiledMethod
  annotations : List AnnotationUse := []
  sourceFile : Option String := none
  pool : Pool := .empty

def hasFlag (access flag : Nat) : Bool := access &&& flag != 0

def bridgeFlag : Nat := 0x0040
def interfaceFlag : Nat := 0x0200
def syntheticFlag : Nat := 0x1000

namespace CompiledType

def simpleName (type : CompiledType) : String := CallAtlas.simpleName type.name

def package (type : CompiledType) : String := packageName type.name

def isInterface (type : CompiledType) : Bool := hasFlag type.access interfaceFlag

end CompiledType

open Reader

structure Attribute where
  name : String
  payload : List UInt8

def readAttributes (pool : Pool) : Reader (List Attribute) :=
  counted do
    let name ← pool.utf8 (← u2)
    let payload ← block (← u4)
    return ⟨name, payload⟩

def Attribute.visibility? (item : Attribute) : Option Bool :=
  if item.name = "RuntimeVisibleAnnotations" then some true
  else if item.name = "RuntimeInvisibleAnnotations" then some false
  else none

structure Body where
  maxStack : Nat
  maxLocals : Nat
  code : List UInt8

def readBody : Reader Body := do
  need 8
  let maxStack ← u2
  let maxLocals ← u2
  return ⟨maxStack, maxLocals, ← block (← u4)⟩

/-- What the attributes of a method say; of several bodies the last counts. -/
structure MethodFacts where
  body : Option Body := none
  annotations : List AnnotationUse := []

def MethodFacts.add (pool : Pool) (facts : MethodFacts) (item : Attribute) :
    Except FormatError MethodFacts := do
  if item.name = "Code" then
    return { facts with body := some (← readBody.parse item.payload) }
  else match item.visibility? with
    | some visible =>
      return { facts with
               annotations := facts.annotations ++ (← readUses pool visible item.payload) }
    | none => return facts

def MethodFacts.ofAttributes (pool : Pool) (items : List Attribute) :
    Except FormatError MethodFacts :=
  items.foldlM (MethodFacts.add pool) {}

def readMethod (pool : Pool) : Reader CompiledMethod := do
  need 6
  let access ← u2
  let name ← u2
  let descriptor ← u2
  let attributes ← readAttributes pool
  let facts ← MethodFacts.ofAttributes pool attributes
  let name ← pool.utf8 name
  let descriptor ← pool.utf8 descriptor
  return {
    name, descriptor, access
    annotations := facts.annotations
    code := facts.body.map Body.code
    maxStack := (facts.body.map Body.maxStack).getD 0
    maxLocals := (facts.body.map Body.maxLocals).getD 0 }

structure TypeFacts where
  sourceFile : Option String := none
  annotations : List AnnotationUse := []

def TypeFacts.add (pool : Pool) (facts : TypeFacts) (item : Attribute) :
    Except FormatError TypeFacts := do
  if item.name = "SourceFile" then
    return { facts with sourceFile := some (← pool.utf8 (← u2.parse item.payload)) }
  else match item.visibility? with
    | some visible =>
      return { facts with
               annotations := facts.annotations ++ (← readUses pool visible item.payload) }
    | none => return facts

def TypeFacts.ofAttributes (pool : Pool) (items : List Attribute) : Except FormatError TypeFacts :=
  items.foldlM (TypeFacts.add pool) {}

def magicNumber : Nat := 0xCAFEBABE

def readHeader (path : String) : Reader Unit := do
  need 8
  let magic ← u4
  let _ ← u4
  if magic ≠ magicNumber then fail (.badMagic magic path)

def skipField (pool : Pool) : Reader Unit := do
  let _ ← number 6
  let _ ← readAttributes pool

def readType (path : String) : Reader CompiledType := do
  readHeader path
  let pool ← readPool
  need 6
  let access ← u2
  let this ← u2
  let super ← u2
  let interfaces ← counted do return dotted (← pool.className (← u2))
  let _ ← counted (skipField pool)
  let methods ← counted (readMethod pool)
  let attributes ← readAttributes pool
  let facts ← TypeFacts.ofAttributes pool attributes
  let name ← pool.className this
  let superName ← if super = 0 then pure none else some <$> pool.className super
  return {
    name := dotted name
    path, access
    superName := superName.map dotted
    interfaces, methods
    annotations := facts.annotations
    sourceFile := facts.sourceFile
    pool }

/-- The type of a class file. What follows it in `bytes` is not looked at. -/
def CompiledType.parse (bytes : List UInt8) (path : String) : Except FormatError CompiledType :=
  (readType path).parse bytes

end CallAtlas.ClassFile
