import CallAtlas.BodyFilter
import CallAtlas.Bytecode.Listing
import CallAtlas.Graph.Reach
import CallAtlas.Java.SourceIndex
import CallAtlas.Project.SourceLocator

/-!
A readable body for every method: its source text where the source is found, else the listing of its
instructions.
-/

namespace CallAtlas.Project

open ClassFile Bytecode Files Java

structure MethodInfo where
  id : MethodId
  name : String
  descriptor : String
  typeName : String
  access : Nat
  path : Option String
  body : String
  deriving DecidableEq, Repr

def missingBody : String := "// Method body not available (external library or JDK method)"

def MethodInfo.missing (id : MethodId) : MethodInfo :=
  { id, name := id.member, descriptor := "()", typeName := id.owner, access := 0, path := none,
    body := missingBody }

inductive SourceError where
  | cut (e : CutError)
  | search (e : BodyError)
  deriving DecidableEq, Repr

def SourceError.message : SourceError → String
  | cut e => e.message
  | search e => e.message

inductive LoadError where
  | decode (e : DecodeError)
  | file (fault : FileFault)
  | source (e : SourceError)
  deriving DecidableEq, Repr

def LoadError.message : LoadError → String
  | decode e => e.message
  | file fault => fault.message
  | source e => e.message

/-- The listings and bodies of methods by identifier. Overloads share one: the first with code
counts. -/
structure BodyStore where
  parser : Parser
  locator : SourceLocator := {}
  prefixes : List String := MethodId.platformPrefixes
  listings : Table MethodId String := []
  infos : Table MethodId MethodInfo := []
  sourceHits : Nat := 0

/-- The body of a method in the text that its type declares itself; types that the text does not
declare by name have none. -/
def sourceBody (source : List Char) (index : FileIndex) (typeName method : String) :
    Except SourceError (Option String) :=
  match index.get? typeName with
  | none => return none
  | some declared => do
    let own ← (declared.ownText source).mapError .cut
    match ← (extractBody source method.toList (some own)).mapError .search with
    | some body => return some (String.ofList body)
    | none => return declared.findBody? method

structure TypeSource where
  path : Option String
  text : List Char
  outline : Outline
  fits : outline.Fits text

namespace TypeSource

def missing : TypeSource := ⟨none, [], .bare, Outline.bare_fits []⟩

def ofText (parser : Parser) (path : String) (text : List Char) : TypeSource :=
  ⟨some path, text, parser.outline text, parser.fits text⟩

def body? (source : TypeSource) (typeName method : String) :
    Except SourceError (Option (String × Option String)) := do
  if source.text.isEmpty then return none
  let body ← sourceBody source.text source.outline.index typeName method
  return body.map fun body => (body, source.path)

end TypeSource

structure TypeBodies where
  listings : Table MethodId String := []
  infos : Table MethodId MethodInfo := []

def hasListing (id : MethodId) (listings : Table MethodId String) : Bool :=
  !((listings.get? id).getD "").isEmpty

namespace TypeBodies

/-- Adds a method unless a method of its name has code already, in this type or in what was stored
before. -/
def addMethod (stored : Table MethodId String) (type : CompiledType) (source : TypeSource)
    (bodies : TypeBodies) (method : CompiledMethod) : Except LoadError TypeBodies :=
  let id := MethodId.ofOwner type.name method.name
  if hasListing id bodies.listings || hasListing id stored then .ok bodies
  else do
    let text ← (listing type.pool method).mapError .decode
    let found ← (source.body? type.name method.name).mapError .source
    let (body, path) := found.getD (text, some type.path)
    let info : MethodInfo :=
      { id, name := method.name, descriptor := method.descriptor, typeName := type.name,
        access := method.access, path, body }
    return { listings := bodies.listings.put id text, infos := bodies.infos.put id info }

def ofType (stored : Table MethodId String) (type : CompiledType) (source : TypeSource) :
    Except LoadError TypeBodies :=
  type.methods.foldlM (addMethod stored type source) {}

end TypeBodies

namespace BodyStore

def sourceOf (disk : Disk) (type : CompiledType) (store : BodyStore) :
    Except FileFault (TypeSource × BodyStore × Log) := do
  let (found, locator, log) ← store.locator.locate disk type
  match found with
  | none => return (.missing, { store with locator }, log)
  | some path =>
    let (text, locator, more) := locator.read disk path
    return (.ofText store.parser path (text.getD []), { store with locator }, log ++ more)

def merge (source : TypeSource) (bodies : TypeBodies) (store : BodyStore) : BodyStore :=
  { store with
    listings := Table.merge store.listings bodies.listings
    infos := Table.merge store.infos bodies.infos
    sourceHits :=
      store.sourceHits + (bodies.infos.values.filter fun info => info.path == source.path).length }

/-- Stores the bodies of a type, all of them or none. -/
def addType (disk : Disk) (type : CompiledType) (store : BodyStore) :
    BodyStore × Log × Option LoadError :=
  match store.sourceOf disk type with
  | .error fault => (store, [], some (.file fault))
  | .ok (source, store, log) =>
    match TypeBodies.ofType store.listings type source with
    | .error e => (store, log, some e)
    | .ok bodies => (store.merge source bodies, log, none)

/-- Stores the bodies of each type. A type whose code is malformed is noted and skipped; any other
error ends the loading. -/
def addTypes (disk : Disk) : List CompiledType → BodyStore → BodyStore × Log × Option LoadError
  | [], store => (store, [], none)
  | type :: rest, store =>
    let (store, log, error) := store.addType disk type
    match error with
    | none =>
      let (store, more, error) := addTypes disk rest store
      (store, log ++ more, error)
    | some (.decode (.format e)) =>
      let (store, more, error) := addTypes disk rest store
      (store, log ++ [warningLog s!"Skipping bodies of {type.name}: {e.message}"] ++ more, error)
    | some error => (store, log, some error)

def load (disk : Disk) (types : List CompiledType) (store : BodyStore) :
    BodyStore × Log × Option LoadError :=
  let (store, log, error) := addTypes disk types store
  match error with
  | some error => (store, log, some error)
  | none =>
    let line :=
      s!"Loaded {store.infos.length} method bodies from {types.length} units ({store.sourceHits} from source)"
    (store, log ++ [infoLog line], none)

def info (store : BodyStore) (id : MethodId) : MethodInfo :=
  (store.infos.get? id).getD (.missing id)

def ordered (store : BodyStore) (graph : CallGraph) (entry : MethodId) : List MethodId :=
  graph.walk store.prefixes entry

def hierarchy (store : BodyStore) (graph : CallGraph) (entry : MethodId) : List MethodInfo :=
  (store.ordered graph entry).map store.info

end BodyStore

def namesController (typeName : String) : Bool :=
  Text.occursIn ".controllers.".toList typeName.toList || endsWith "Controller" typeName

/-- Whether a method of a controller can be called from outside: no initialiser and not made by the
compiler. -/
def MethodInfo.isAction (info : MethodInfo) : Bool :=
  info.name.toList.head? ≠ some '<' && !hasFlag info.access syntheticFlag &&
  !hasFlag info.access bridgeFlag

def BodyStore.controllerMethods (store : BodyStore) (types : List String) : List MethodInfo :=
  (store.infos.values.filter fun info =>
    (info.typeName ∈ types || namesController info.typeName) && info.isAction).mergeSort fun a b =>
      a.id ≤ b.id

end CallAtlas.Project
