import CallAtlas.Artifact.Report
import CallAtlas.Graph.Calls
import CallAtlas.Graph.Interfaces
import CallAtlas.Project.LoadedTypes
import CallAtlas.Run.Settings

/-!
An analysis stage by stage: types are loaded, calls and endpoints extracted, calls of interfaces
resolved and artifacts written. A stage is refused before the one that it needs, and calls are
extracted and resolved once.
-/

namespace CallAtlas.Run

open ClassFile Bytecode Files Project Artifact

inductive StageError where
  | extractBeforeLoad
  | extractAgain
  | resolveBeforeExtract
  | resolveAgain
  | writeBeforeResolve
  deriving DecidableEq, Repr

def StageError.message : StageError → String
  | extractBeforeLoad => "extract() needs load_units() first"
  | extractAgain => "extract() already ran"
  | resolveBeforeExtract => "resolve_interfaces() needs extract() first"
  | resolveAgain => "resolve_interfaces() already ran; a second pass would expand twice"
  | writeBeforeResolve => "generate_artifacts() needs resolve_interfaces() first"

inductive RunError where
  | noInput (dir : String)
  | noOutput (e : OutputError)
  | stage (e : StageError)
  | bodiesBeforeLoad
  | load (e : LoadError)
  deriving DecidableEq, Repr

def RunError.message : RunError → String
  | noInput dir => s!"Provided classes path is not a directory: {dir}"
  | noOutput e => e.message
  | stage e => e.message
  | bodiesBeforeLoad => "no types are loaded"
  | load e => e.message

structure Extraction where
  graph : CallGraph := .empty
  endpoints : EndpointRegistry := {}
  log : Log := []

namespace Extraction

/-- Adds a type. If its code is malformed, that is noted and its endpoints are added all the same;
if it has an opcode that cannot be named, that is the error. The graph is what the extraction of
calls left. -/
def addType (prefixes : List String) (type : CompiledType) (found : Extraction) :
    Extraction × Option DecodeError :=
  let (result, graph) := (GraphRun.addType prefixes type).outcome found.graph
  let (_, endpoints, more) := found.endpoints.scanType type
  match result with
  | .ok added => (⟨graph, endpoints, found.log ++ added.log ++ more⟩, none)
  | .error (.format e) =>
    let warning := warningLog s!"Skipping calls of {type.name}: {e.message}"
    (⟨graph, endpoints, found.log ++ [warning] ++ more⟩, none)
  | .error e => ({ found with graph }, some e)

def addTypes (prefixes : List String) : List CompiledType → Extraction →
    Extraction × Option DecodeError
  | [], found => (found, none)
  | type :: rest, found =>
    match found.addType prefixes type with
    | (found, none) => addTypes prefixes rest found
    | (found, some e) => (found, some e)

end Extraction

structure Analysis where
  settings : Settings
  loaded : Option LoadedTypes := none
  graph : CallGraph := .empty
  interfaces : Option Implementers := none
  endpoints : EndpointRegistry := {}
  extracted : Bool := false
  resolved : Bool := false

structure Workspace where
  disk : Disk
  analysis : Analysis
  parser : Except String Java.Parser
  log : Log := []

abbrev Stage := Fallible RunError Workspace

namespace Stage

def note (log : Log) : Stage Unit := modify fun w => { w with log := w.log ++ log }

def analysis : Stage Analysis := return (← get).analysis

def change (f : Analysis → Analysis) : Stage Unit :=
  modify fun w => { w with analysis := f w.analysis }

def refuseIf (condition : Bool) (e : StageError) : Stage Unit :=
  if condition then throw (.stage e) else return ()

end Stage

open Stage

def loadTypes : Stage LoadedTypes := do
  let disk := (← get).disk
  let dir := (← analysis).settings.classesDir
  if !disk.isDir dir then throw (.noInput dir)
  let (loaded, log) := LoadedTypes.ofDir disk dir
  note log
  change fun a => { a with loaded := some loaded }
  return loaded

def extractCalls : Stage (List Endpoint) := do
  let a ← analysis
  let some loaded := a.loaded | throw (.stage .extractBeforeLoad)
  refuseIf a.extracted .extractAgain
  let found : Extraction := { graph := a.graph, endpoints := a.endpoints }
  let (found, error) := found.addTypes a.settings.excludedPrefixes loaded.types
  note found.log
  change fun a =>
    { a with graph := found.graph, endpoints := found.endpoints, extracted := error.isNone }
  if let some e := error then throw (.load (.decode e))
  let endpoints := found.endpoints.endpoints
  note [infoLog s!"Detected {endpoints.length} REST endpoints"]
  return endpoints

def resolveCalls : Stage Nat := do
  let a ← analysis
  refuseIf (!a.extracted) .resolveBeforeExtract
  refuseIf a.resolved .resolveAgain
  let map := implementers ((a.loaded.map LoadedTypes.types).getD [])
  let result := a.graph.resolve map
  note result.log
  change fun a => { a with graph := result.graph, interfaces := some map, resolved := true }
  return result.added

/-- Loads the bodies of the loaded types, none if sources cannot be read. -/
def loadBodies : Stage (Option BodyStore) := do
  let w ← get
  match w.parser with
  | .error reason =>
    note [warningLog s!"Method body extraction disabled: Could not load the Java grammar: {reason}"]
    return none
  | .ok parser =>
    let some loaded := w.analysis.loaded | throw .bodiesBeforeLoad
    let store : BodyStore := { parser, prefixes := w.analysis.settings.excludedPrefixes }
    let (store, log, error) := store.load w.disk loaded.types
    note log
    if let some e := error then throw (.load e)
    return some store

def bodiesFor (disk : Disk) (a : Analysis) (store : BodyStore) : Bodies :=
  { store
    filters := if a.settings.filterMethods
      then Table.ofPairs
        (((a.loaded.map LoadedTypes.types).getD []).map fun type => (type.name, .ofType type))
      else []
    sourceDir := guessSourceDir disk a.settings.classesDir }

def writeArtifacts (store : Option BodyStore) : Stage Report := do
  let w ← get
  let a := w.analysis
  refuseIf (!a.resolved) .writeBeforeResolve
  let output : Output :=
    { graph := a.graph, dir := a.settings.outputDir, bodies := store.map (bodiesFor w.disk a) }
  let (disk, log, result) := output.save a.endpoints.endpoints a.endpoints.controllers w.disk
  modify fun w => { w with disk }
  note log
  match result with
  | .error e => throw (.noOutput e)
  | .ok report => return report

end CallAtlas.Run
