import CallAtlas.Run.Analysis

/-!
All stages in a row, and the counts that are shown at the end.
-/

namespace CallAtlas.Run

open Files

structure Summary where
  classesDir : String
  outputDir : String
  typesLoaded : Nat
  filesSkipped : Nat
  calls : Nat
  endpointsDetected : Nat
  endpointsWritten : Nat
  bodies : Option Nat
  failed : List String
  deriving DecidableEq, Repr

def runStages : Stage Summary := do
  let cwd := (← get).disk.cwd
  let settings := (← Stage.analysis).settings
  let loaded ← loadTypes
  let endpoints ← extractCalls
  let _ ← resolveCalls
  let calls := (← Stage.analysis).graph.edges.length
  let store ← if settings.extractBodies then loadBodies else pure none
  let report ← writeArtifacts store
  return {
    classesDir := absolute cwd settings.classesDir
    outputDir := absolute cwd settings.outputDir
    typesLoaded := loaded.types.length
    filesSkipped := loaded.skipped.length
    calls
    endpointsDetected := endpoints.length
    endpointsWritten := report.endpointsWritten
    bodies := store.map fun store => store.infos.length
    failed := report.failed }

def Summary.lines (summary : Summary) : List String :=
  [ "",
    "=== INPUT ===",
    s!" - classes: {summary.classesDir}",
    s!" - units loaded: {summary.typesLoaded} ({summary.filesSkipped} skipped)",
    s!" - call edges: {summary.calls}",
    "",
    "=== OUTPUT ===",
    s!" - directory: {summary.outputDir}",
    s!" - endpoints detected: {summary.endpointsDetected}",
    s!" - endpoints written: {summary.endpointsWritten}",
    match summary.bodies with
    | some count => s!" - method bodies loaded: {count}"
    | none => " - method bodies: disabled" ] ++
  summary.failed.map fun path => s!"   failed: {path}"

end CallAtlas.Run
