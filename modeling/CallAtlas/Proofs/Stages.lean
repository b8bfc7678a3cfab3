import CallAtlas.Run.Analysis

/-! What the stages of an analysis do to the workspace. -/

namespace CallAtlas.Run

open Project

namespace Stage

@[simp] theorem outcome_analysis (w : Workspace) : analysis.outcome w = (.ok w.analysis, w) := rfl

@[simp] theorem outcome_note (log : Log) (w : Workspace) :
    (note log).outcome w = (.ok (), { w with log := w.log ++ log }) := rfl

@[simp] theorem outcome_change (f : Analysis → Analysis) (w : Workspace) :
    (change f).outcome w = (.ok (), { w with analysis := f w.analysis }) := rfl

@[simp] theorem outcome_refuseIf (condition : Bool) (e : StageError) (w : Workspace) :
    (refuseIf condition e).outcome w = (if condition then .error (.stage e) else .ok (), w) := by
  cases condition <;> rfl

end Stage

theorem loadTypes_outcome (w : Workspace)
    (present : w.disk.isDir w.analysis.settings.classesDir = true) :
    let result := LoadedTypes.ofDir w.disk w.analysis.settings.classesDir
    loadTypes.outcome w = (.ok result.1,
      { w with analysis := { w.analysis with loaded := some result.1 },
               log := w.log ++ result.2 }) := by
  simp [loadTypes, present, Except.map]

theorem extractCalls_outcome (w : Workspace) (loaded : LoadedTypes) (found : Extraction)
    (present : w.analysis.loaded = some loaded) (first : w.analysis.extracted = false)
    (done : Extraction.addTypes w.analysis.settings.excludedPrefixes loaded.types
      { graph := w.analysis.graph, endpoints := w.analysis.endpoints } = (found, none)) :
    ∃ log, extractCalls.outcome w = (.ok found.endpoints.endpoints,
      { w with
        analysis :=
          { w.analysis with graph := found.graph, endpoints := found.endpoints, extracted := true }
        log }) := by
  refine ⟨w.log ++ found.log ++
    [infoLog s!"Detected {found.endpoints.endpoints.length} REST endpoints"], ?_⟩
  simp [extractCalls, present, first, done, Except.map]

theorem resolveCalls_outcome (w : Workspace) (extracted : w.analysis.extracted = true)
    (first : w.analysis.resolved = false) :
    let map := implementers ((w.analysis.loaded.map LoadedTypes.types).getD [])
    let result := w.analysis.graph.resolve map
    resolveCalls.outcome w = (.ok result.added,
      { w with
        analysis :=
          { w.analysis with graph := result.graph, interfaces := some map, resolved := true }
        log := w.log ++ result.log }) := by
  simp [resolveCalls, extracted, first, Except.map]

end CallAtlas.Run
