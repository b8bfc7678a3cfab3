import CallAtlas.Artifact.Json
import CallAtlas.BodyFilter
import CallAtlas.Endpoint
import CallAtlas.Graph.Basic
import CallAtlas.Project.BodyStore

/-!
The contents of the files that an analysis writes, and their names.
-/

namespace CallAtlas.Artifact

open Project

def fullGraphFile : String := "full_call_graph.json"

def controllersFile : String := "controller_method_bodies.json"

def isSafeChar (c : Char) : Bool := c.isAlphanum || c == '.' || c == '-' || c == '_'

def safeName (name : String) : String :=
  String.ofList (name.toList.map fun c => if isSafeChar c then c else '_')

/-- Verb and path. File names keep no half of a surrogate pair, so that any other character may
stand for it. -/
def endpointBase (endpoint : Endpoint) : String :=
  endpoint.verb ++ "_" ++ endpoint.path.render (fun c => [c]) fun _ => [Text.replacement]

def endpointFile (endpoint : Endpoint) : String := safeName (endpointBase endpoint ++ ".json")

def bodiesFile (endpoint : Endpoint) : String :=
  safeName (endpointBase endpoint ++ "_method_bodies.json")

def graphValue (graph : CallGraph) : JsonValue :=
  .object (graph.sortedRows.map fun row => (row.1, .list (row.2.map .text)))

structure Bodies where
  store : BodyStore
  filters : Table String BodyFilter := []
  sourceDir : Option String := none

def relativePath (sourceDir : Option String) (path : String) : String :=
  match sourceDir with
  | none => path
  | some dir =>
    let dir := (dir.toList.reverse.dropWhile (· == '/')).reverse
    if !dir.isEmpty && (dir ++ ['/']).isPrefixOf path.toList
      then String.ofList (path.toList.drop (dir.length + 1))
    else path

namespace Bodies

def isFiltered (bodies : Bodies) (info : MethodInfo) : Bool :=
  match bodies.filters.get? info.typeName with
  | some filter => filter.skips info.name info.descriptor
  | none => false

def methodValue (bodies : Bodies) (info : MethodInfo) : JsonValue :=
  let path :=
    info.path.map fun path => ("filePath", JsonValue.text (relativePath bodies.sourceDir path))
  .object ([("name", .text info.id), ("body", .text info.body)] ++ path.toList)

/-- The methods below an entry point, which itself is never filtered. -/
def methodsBelow (bodies : Bodies) (graph : CallGraph) (entry : MethodId) : List MethodInfo :=
  (bodies.store.hierarchy graph entry).filter fun info => info.id = entry || !bodies.isFiltered info

def methodsValue (bodies : Bodies) (graph : CallGraph) (entry : MethodId) : JsonValue :=
  .list ((bodies.methodsBelow graph entry).map bodies.methodValue)

def endpointValue (bodies : Bodies) (graph : CallGraph) (endpoint : Endpoint) : JsonValue :=
  .object [("endpoint", .codes endpoint.key), ("entryPoint", .text endpoint.entry),
    ("methods", bodies.methodsValue graph endpoint.entry)]

def unmappedMethods (bodies : Bodies) (endpoints : List Endpoint) (controllers : List String) :
    List MethodInfo :=
  (bodies.store.controllerMethods controllers).filter fun info =>
    info.id ∉ endpoints.map Endpoint.entry

def controllersValue (bodies : Bodies) (graph : CallGraph) (endpoints : List Endpoint)
    (controllers : List String) :
    JsonValue :=
  .object [("controllers", .list ((bodies.unmappedMethods endpoints controllers).map fun info =>
    .object [("controllerMethod", .text info.id), ("methods", bodies.methodsValue graph info.id)]))]

end Bodies

end CallAtlas.Artifact
