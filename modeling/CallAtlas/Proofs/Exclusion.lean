import CallAtlas.Proofs.CallEdges

/-!
Methods that are left out of the call graph. Extraction keeps them out; resolution brings them back
as implementations of an interface that is called.
-/

namespace CallAtlas

open ClassFile Bytecode

def Excluded (prefixes : List String) (id : MethodId) : Prop :=
  ∃ part ∈ prefixes, part.toList <+: id.toList

theorem DirectCall.not_excluded {types : List CompiledType} {prefixes : List String}
    {caller callee : MethodId} (call : DirectCall types prefixes caller callee) :
    ¬ Excluded prefixes callee := by
  obtain ⟨_, _, _, _, kept⟩ := call
  rintro ⟨part, listed, begins⟩
  exact kept part listed begins

namespace CallGraph

theorem mem_edges_of_mem_callees {g : CallGraph} {caller callee : MethodId}
    (called : callee ∈ g.callees caller) :
    (caller, callee) ∈ g.edges := by
  rw [callees] at called
  cases row : g.rows.get? caller with
  | none =>
    rw [row] at called
    cases called
  | some found =>
    rw [row] at called
    exact mem_edges.mpr ⟨(caller, found), Table.mem_of_get? row, rfl, called⟩

theorem subgraph_edges_subset (g : CallGraph) (entry : MethodId) :
    (g.subgraph entry).edges ⊆ g.edges := by
  rintro ⟨caller, callee⟩ member
  obtain ⟨row, present, rfl, inside⟩ := mem_edges.mp member
  obtain ⟨method, _, rfl⟩ := List.mem_map.mp (List.mem_filter.mp present).1
  exact mem_edges_of_mem_callees inside

def Shows (g : CallGraph) (callee : MethodId) : Prop := ∃ row ∈ g.sortedRows, callee ∈ row.2

theorem shows_iff {g : CallGraph} {callee : MethodId} : g.Shows callee ↔
    ∃ caller, (caller, callee) ∈ g.edges := by
  simp only [Shows, sortedRows, List.mem_mergeSort, List.mem_map, mem_edges]
  constructor
  · rintro ⟨_, ⟨row, present, rfl⟩, inside⟩
    exact ⟨row.1, row, present, rfl, List.mem_mergeSort.mp inside⟩
  · rintro ⟨_, row, present, rfl, inside⟩
    exact ⟨_, ⟨row, present, rfl⟩, List.mem_mergeSort.mpr inside⟩

theorem Shows.of_subgraph {g : CallGraph} {entry callee : MethodId}
    (shown : (g.subgraph entry).Shows callee) :
    g.Shows callee := by
  obtain ⟨caller, member⟩ := shows_iff.mp shown
  exact shows_iff.mpr ⟨caller, subgraph_edges_subset g entry member⟩

end CallGraph

namespace Run

theorem Extraction.formatOnly_of_done {prefixes : List String} {types : List CompiledType}
    {found last : Extraction} (done : found.addTypes prefixes types = (last, none)) :
    ∀ type ∈ types, ∀ code, typeCalls type ≠ .error (.unlistedWide code) := by
  induction types generalizing found with
  | nil => simp
  | cons type rest ih =>
    rw [addTypes] at done
    split at done
    · rename_i next step
      rw [List.forall_mem_cons]
      refine ⟨?_, ih done⟩
      intro code failed
      simp only [addType, GraphRun.addType_outcome, failed] at step
      cases step
    · cases done

theorem extractCalls_completed {w extracted : Workspace} {loaded : Project.LoadedTypes}
    {endpoints : List Endpoint} (present : w.analysis.loaded = some loaded)
    (first : w.analysis.extracted = false)
    (extraction : extractCalls.outcome w = (.ok endpoints, extracted)) :
    ∃ found, Extraction.addTypes w.analysis.settings.excludedPrefixes loaded.types
        { graph := w.analysis.graph, endpoints := w.analysis.endpoints } = (found, none) ∧
      extracted.analysis =
        { w.analysis with
          graph := found.graph, endpoints := found.endpoints, extracted := true } := by
  cases run : Extraction.addTypes w.analysis.settings.excludedPrefixes loaded.types
      { graph := w.analysis.graph, endpoints := w.analysis.endpoints } with
  | mk found error =>
    cases error with
    | none =>
      obtain ⟨log, outcome⟩ := extractCalls_outcome w loaded found present first run
      rw [outcome] at extraction
      cases extraction
      exact ⟨found, rfl, rfl⟩
    | some e => simp [extractCalls, present, first, run] at extraction

end Run

/-- Extraction leaves the excluded methods out. After resolution those are called that implement a
called method, and no others, so that none is written just if no call leads to an excluded
implementation. -/
theorem excluded_edges_iff (w : Run.Workspace) (settings : Run.Settings)
    (loaded : Project.LoadedTypes) (fresh : w.analysis = { settings, loaded := some loaded })
    {endpoints : List Endpoint} {added : Nat} {extracted resolved : Run.Workspace}
    (extraction : Run.extractCalls.outcome w = (.ok endpoints, extracted))
    (resolution : Run.resolveCalls.outcome extracted = (.ok added, resolved)) :
    (∀ edge ∈ extracted.analysis.graph.edges, ¬ Excluded settings.excludedPrefixes edge.2) ∧
    (∀ caller callee, Excluded settings.excludedPrefixes callee →
      ((caller, callee) ∈ resolved.analysis.graph.edges ↔
        ∃ direct, DirectCall loaded.types settings.excludedPrefixes caller direct ∧
          Implements loaded.types direct callee)) ∧
    ((∀ callee, Excluded settings.excludedPrefixes callee → ¬ resolved.analysis.graph.Shows callee ∧
        ∀ entry, ¬ (resolved.analysis.graph.subgraph entry).Shows callee) ↔
      ∀ caller direct target, DirectCall loaded.types settings.excludedPrefixes caller direct →
        Implements loaded.types direct target → ¬ Excluded settings.excludedPrefixes target) := by
  obtain ⟨found, run, analysis⟩ :=
    Run.extractCalls_completed (by rw [fresh]) (by rw [fresh]) extraction
  rw [fresh] at run analysis
  obtain ⟨last, again, edges⟩ :=
    Run.Extraction.addTypes_edges settings.excludedPrefixes loaded.types
    { graph := .empty, endpoints := {} } (Run.Extraction.formatOnly_of_done run)
  cases run.symm.trans again
  have direct (caller callee : MethodId) : (caller, callee) ∈ extracted.analysis.graph.edges ↔
      DirectCall loaded.types settings.excludedPrefixes caller callee := by
    rw [analysis, edges]
    simp [CallGraph.edges, CallGraph.empty]
  have graph : resolved.analysis.graph =
      (extracted.analysis.graph.resolve (implementers loaded.types)).graph := by
    rw [Run.resolveCalls_outcome extracted (by rw [analysis]) (by rw [analysis])] at resolution
    cases resolution
    simp [analysis]
  have reached (caller callee : MethodId) (excluded : Excluded settings.excludedPrefixes callee) :
      (caller, callee) ∈ resolved.analysis.graph.edges ↔
        ∃ called, DirectCall loaded.types settings.excludedPrefixes caller called ∧
          Implements loaded.types called callee := by
    rw [graph, mem_edges_resolve]
    constructor
    · rintro ⟨called, member, reached⟩
      have call := (direct caller called).mp member
      rcases reached with rfl | target
      · exact absurd excluded call.not_excluded
      · exact ⟨called, call, (mem_interfaceTargets call.dotted).mp target⟩
    · rintro ⟨called, call, implements⟩
      exact ⟨called, (direct caller called).mpr call,
        .inr ((mem_interfaceTargets call.dotted).mpr implements)⟩
  refine ⟨?_, reached, ?_, ?_⟩
  · rintro ⟨caller, callee⟩ member
    exact ((direct caller callee).mp member).not_excluded
  · intro hidden caller called target call implements excluded
    have member := (reached caller target excluded).mpr ⟨called, call, implements⟩
    exact (hidden target excluded).1 (CallGraph.shows_iff.mpr ⟨caller, member⟩)
  · intro kept callee excluded
    have hidden : ¬ resolved.analysis.graph.Shows callee := by
      intro shown
      obtain ⟨caller, member⟩ := CallGraph.shows_iff.mp shown
      obtain ⟨called, call, implements⟩ := (reached caller callee excluded).mp member
      exact kept caller called callee call implements excluded
    exact ⟨hidden, fun entry shown => hidden shown.of_subgraph⟩

/-- A type that calls a method of an interface, and one of a library that declares the interface. -/
def libraryTypes : List CompiledType :=
  [{ name := "app.Main", path := "Main.class", access := 33, superName := none, interfaces := []
     methods := [{ name := "run", descriptor := "()V", access := 1,
                   code := some [0xB9, 0, 1, 1, 0, 0xB1] }]
     pool := ⟨[none, some (.interfaceMethod 2 3), some (.classRef 4), some (.nameAndType 5 6),
       some (.utf8 "app/Shape"), some (.utf8 "area"), some (.utf8 "()V")]⟩ },
   { name := "lib.Disc", path := "Disc.class", access := 33, superName := none,
     interfaces := ["app.Shape"]
     methods := [{ name := "area", descriptor := "()V", access := 1, code := some [0xB1] }] }]

def librarySettings : Run.Settings := { classesDir := "classes", excludedPrefixes := ["lib."] }

def libraryWorkspace : Run.Workspace :=
  { disk := {}, parser := .ok .bare
    analysis :=
      { settings := librarySettings, loaded := some { root := "classes", types := libraryTypes } } }

theorem excluded_edges_library :
    ∃ endpoints added extracted resolved,
      Run.extractCalls.outcome libraryWorkspace = (.ok endpoints, extracted) ∧
      Run.resolveCalls.outcome extracted = (.ok added, resolved) ∧
      (∀ edge ∈ extracted.analysis.graph.edges, ¬ Excluded ["lib."] edge.2) ∧
      ∀ caller, (caller, "lib.Disc.area") ∈ resolved.analysis.graph.edges ↔
        ∃ direct, DirectCall libraryTypes ["lib."] caller direct ∧
          Implements libraryTypes direct "lib.Disc.area" := by
  have run : (Run.Extraction.addTypes ["lib."] libraryTypes
      { graph := .empty, endpoints := {} }).2 = none := by
    decide +kernel
  obtain ⟨log, extraction⟩ :=
    Run.extractCalls_outcome libraryWorkspace { root := "classes", types := libraryTypes } _
    rfl rfl (Prod.ext rfl run)
  have resolution :=
    Run.resolveCalls_outcome (Run.extractCalls.outcome libraryWorkspace).2 (by rw [extraction])
    (by rw [extraction]; rfl)
  rw [extraction] at resolution
  have leaves :=
    excluded_edges_iff libraryWorkspace librarySettings
      { root := "classes", types := libraryTypes } rfl
    extraction resolution
  refine ⟨_, _, _, _, extraction, resolution, leaves.1, ?_⟩
  intro caller
  exact leaves.2.1 caller "lib.Disc.area" ⟨"lib.", List.mem_singleton_self _, by decide⟩

theorem excluded_edge_resolved :
    (Run.resolveCalls.outcome
      (Run.extractCalls.outcome libraryWorkspace).2).2.analysis.graph.edges =
        [("app.Main.run", "app.Shape.area"), ("app.Main.run", "lib.Disc.area")] ∧
      librarySettings.excludedPrefixes = ["lib."] ∧ Excluded ["lib."] "lib.Disc.area" := by
  refine ⟨by decide +kernel, rfl, "lib.", List.mem_singleton_self _, by decide⟩

end CallAtlas
