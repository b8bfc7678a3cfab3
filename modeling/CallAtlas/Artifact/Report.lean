import CallAtlas.Artifact.Bundle
import CallAtlas.Files.Disk
import CallAtlas.Text.Quoted

/-!
Writing the artifacts of an analysis. A write that fails is noted and the others go on.
-/

namespace CallAtlas.Artifact

open Files

structure WriteFailure (σ : Type) where
  reason : String
  state : σ

abbrev Writer (σ : Type) := σ → (path content : String) → Except (WriteFailure σ) σ

def diskWriter : Writer Disk := fun disk path content =>
  match atPath path (disk.write path (Text.encodeUtf8 content.toList)) with
  | .ok disk => .ok disk
  | .error fault => .error ⟨fault.message, disk⟩

structure Report where
  endpointsProcessed : Nat := 0
  endpointsWritten : Nat := 0
  written : List String := []
  failed : List String := []
  overwritten : List String := []
  deriving DecidableEq, Repr

structure Output where
  graph : CallGraph
  dir : String
  bodies : Option Bodies := none

/-- The state of writing: which endpoint claimed a file last, and which files of endpoints were
written. -/
structure Progress (σ : Type) where
  state : σ
  report : Report := {}
  log : Log := []
  claimed : Table String Text.CodeText := []
  endpointFiles : List String := []

namespace Progress

variable {σ : Type}

def write (writer : Writer σ) (dir name : String) (value : JsonValue) (p : Progress σ) :
    Progress σ × Bool :=
  let path := joinPath dir name
  match writer p.state path value.toText with
  | .ok state =>
    ({ p with
        state
        report := { p.report with written := p.report.written ++ [path] }
        log := p.log ++ [infoLog s!"Wrote {path}"] }, true)
  | .error failure =>
    ({ p with
        state := failure.state
        report := { p.report with failed := p.report.failed ++ [path] }
        log := p.log ++ [warningLog s!"Failed to write {path}: {failure.reason}"] }, false)

def claim (endpoint : Endpoint) (p : Progress σ) : Progress σ :=
  let name := endpointFile endpoint
  let claimed := p.claimed.put name endpoint.key
  let report := { p.report with endpointsProcessed := p.report.endpointsProcessed + 1 }
  match p.claimed.get? name with
  | none => { p with claimed, report }
  | some before =>
    let keys := s!"Endpoints {Text.quotedCodes before} and {Text.quotedCodes endpoint.key}"
    { p with
      claimed
      report := { report with overwritten := report.overwritten ++ [name] }
      log := p.log ++ [warningLog s!"{keys} both write {name}; the later one overwrites it"] }

def countFile (name : String) (p : Progress σ) : Progress σ :=
  if name ∈ p.endpointFiles then p
  else
    { p with
      endpointFiles := p.endpointFiles ++ [name]
      report := { p.report with endpointsWritten := p.report.endpointsWritten + 1 } }

def writeEndpoint (writer : Writer σ) (output : Output) (p : Progress σ)
    (endpoint : Endpoint) : Progress σ :=
  let name := endpointFile endpoint
  let (p, success) :=
    (p.claim endpoint).write writer output.dir name
      (graphValue (output.graph.subgraph endpoint.entry))
  let p := if success then p.countFile name else p
  match output.bodies with
  | none => p
  | some bodies =>
    (p.write writer output.dir (bodiesFile endpoint) (bodies.endpointValue output.graph endpoint)).1

end Progress

/-- Writes every artifact: the whole graph, the files of each endpoint in the order of their keys,
and the bodies of the other controller methods. -/
def Output.writeAll {σ : Type} (writer : Writer σ) (output : Output) (endpoints : List Endpoint)
    (controllers : List String) (state : σ) : Progress σ :=
  let endpoints := endpoints.mergeSort fun a b => a.key ≤ b.key
  let p : Progress σ := { state }
  let p := (p.write writer output.dir fullGraphFile (graphValue output.graph)).1
  let p := endpoints.foldl (Progress.writeEndpoint writer output) p
  let p := match output.bodies with
    | none => p
    | some bodies =>
      (p.write writer output.dir controllersFile
        (bodies.controllersValue output.graph endpoints controllers)).1
  { p with log := p.log ++
    [infoLog s!"Generated call graphs for {p.report.endpointsProcessed} endpoints"] }

structure OutputError where
  dir : String
  fault : FileFault
  deriving DecidableEq, Repr

def OutputError.message (e : OutputError) : String :=
  s!"Failed to create output directory {e.dir}: {e.fault.message}"

def Output.save (output : Output) (endpoints : List Endpoint) (controllers : List String)
    (disk : Disk) :
    Disk × Log × Except OutputError Report :=
  match disk.makeDirs output.dir with
  | (disk, some error) => (disk, [], .error ⟨output.dir, ⟨error, output.dir⟩⟩)
  | (disk, none) =>
    let p := output.writeAll diskWriter endpoints controllers disk
    (p.state, p.log, .ok p.report)

end CallAtlas.Artifact
