import CallAtlas.ClassFile.CompiledType
import CallAtlas.Graph.Basic
import CallAtlas.Log
import CallAtlas.Text.Quoted

/-!
HTTP endpoints: methods with a mapping annotation in types with a controller annotation, keyed by
verb and path. Of two methods with one key the later counts.
-/

namespace CallAtlas

open ClassFile

structure Endpoint where
  verb : String
  path : Text.CodeText
  entry : MethodId
  deriving DecidableEq, Repr

def Endpoint.key (e : Endpoint) : Text.CodeText := Text.CodeText.ofString (e.verb ++ " ") ++ e.path

def mappingVerbs : Table String String :=
  [("GetMapping", "GET"), ("PostMapping", "POST"), ("PutMapping", "PUT"),
    ("DeleteMapping", "DELETE"), ("PatchMapping", "PATCH"), ("RequestMapping", "REQUEST")]

def firstItem : Element → Option Element
  | .array items => items.head?
  | value => some value

/-- The text of a text or character element. A character may be half of a surrogate pair. -/
def textOfElement? : Element → Option Text.CodeText
  | .text value => some value
  | .char unit => some ⟨[unit]⟩
  | _ => none

def enumConstant? : Element → Option String
  | .enum _ constant => some constant
  | _ => none

structure Mapping where
  verb : String
  path : Text.CodeText
  deriving DecidableEq, Repr

def elementText? (use : AnnotationUse) (name : String) : Option Text.CodeText :=
  ((use.values.get? name).bind firstItem).bind textOfElement?

def pathOf? (use : AnnotationUse) : Option Text.CodeText :=
  (elementText? use "path").or (elementText? use "value")

def explicitVerb? (use : AnnotationUse) : Option String :=
  ((use.values.get? "method").bind firstItem).bind enumConstant?

/-- A later mapping annotation decides the verb, and the path if it has one. -/
def Mapping.update (mapping : Option Mapping) (use : AnnotationUse) : Option Mapping :=
  match mappingVerbs.get? use.simpleName with
  | none => mapping
  | some verb =>
    let path := (pathOf? use).getD ((mapping.map Mapping.path).getD "")
    some ⟨(explicitVerb? use).getD verb, path⟩

def Mapping.ofUses (uses : List AnnotationUse) : Option Mapping := uses.foldl Mapping.update none

def isControllerUse (use : AnnotationUse) : Bool :=
  "Controller".toList.isSuffixOf use.simpleName.toList

structure EndpointRegistry where
  table : Table Text.CodeText Endpoint := []
  controllers : List String := []
  current : Option (String × Bool) := none

inductive RegistryError where
  | noType
  deriving DecidableEq, Repr

def RegistryError.message : RegistryError → String
  | noType => "visit_unit() must be called before visit_method()"

namespace EndpointRegistry

def endpoints (r : EndpointRegistry) : List Endpoint := r.table.values

def entryMethods (r : EndpointRegistry) : List MethodId := distinct (r.endpoints.map Endpoint.entry)

def visitType (r : EndpointRegistry) (type : CompiledType) : EndpointRegistry :=
  let isController := type.annotations.any isControllerUse
  { r with
    current := some (type.name, isController)
    controllers := if isController then insertNew type.name r.controllers else r.controllers }

def register (r : EndpointRegistry) (endpoint : Endpoint) : EndpointRegistry × Log :=
  let log := match r.table.get? endpoint.key with
    | some previous =>
      [debugLog s!"Endpoint {Text.printed endpoint.key}: {endpoint.entry} replaces {previous.entry}"]
    | none => []
  ({ r with table := r.table.put endpoint.key endpoint }, log)

def visitMethodOf (r : EndpointRegistry) (type : String) (isController : Bool)
    (method : CompiledMethod) :
    Option Endpoint × EndpointRegistry × Log :=
  match if isController then Mapping.ofUses method.annotations else none with
  | none => (none, r, [])
  | some mapping =>
    let endpoint : Endpoint := ⟨mapping.verb, mapping.path, MethodId.ofOwner type method.name⟩
    (some endpoint, r.register endpoint)

def visitMethod (r : EndpointRegistry) (method : CompiledMethod) :
    Except RegistryError (Option Endpoint × EndpointRegistry × Log) :=
  match r.current with
  | none => .error .noType
  | some (type, isController) => .ok (r.visitMethodOf type isController method)

def scanType (r : EndpointRegistry) (type : CompiledType) :
    List Endpoint × EndpointRegistry × Log :=
  let isController := type.annotations.any isControllerUse
  type.methods.foldl (fun (found, r, log) method =>
    let (endpoint, r, more) := r.visitMethodOf type.name isController method
    (found ++ endpoint.toList, r, log ++ more)) ([], r.visitType type, [])

def scan (r : EndpointRegistry) (types : List CompiledType) : EndpointRegistry × Log :=
  types.foldl (fun (r, log) type =>
    let (_, r, more) := r.scanType type
    (r, log ++ more)) (r, [])

end EndpointRegistry

end CallAtlas
