import CallAtlas.Proofs.CallEdges
import CallAtlas.Proofs.SetTables
import CallAtlas.Proofs.Sorting

/-!
The written form of a call graph depends on its edges alone: not on the order in which they were
added, nor on that of the types which they come from.
-/

namespace CallAtlas

open ClassFile Bytecode

namespace CallGraph

/-- A graph that additions of edges and resolutions have made. The sets in it may be listed anew at
any time. -/
inductive Built : CallGraph → Prop where
  | empty : Built .empty
  | addEdge {g : CallGraph} (built : Built g) (caller callee : MethodId) :
      Built (g.addEdge caller callee)
  | resolve {g : CallGraph} (built : Built g) (map : Implementers) : Built (g.resolve map).graph
  | relist {g h : CallGraph} (built : Built g) (again : g.rows.Relisted h.rows) : Built h

theorem mem_edges_iff_lists {g : CallGraph} {caller callee : MethodId} :
    (caller, callee) ∈ g.edges ↔ g.rows.Lists caller callee := mem_edges

theorem ofSets_resolve {g : CallGraph} (sets : g.rows.OfSets) (map : Implementers) :
    (g.resolve map).graph.rows.OfSets := by
  have keys : (g.resolve map).graph.rows.keys = g.rows.keys := by simp [resolve, Table.keys]
  refine ⟨keys ▸ sets.keys, ?_⟩
  intro row member
  obtain ⟨old, present, rfl⟩ := List.mem_map.mp member
  obtain ⟨distinct, filled⟩ := sets.rows old present
  obtain ⟨callee, called⟩ := List.exists_mem_of_ne_nil old.2 filled
  refine ⟨nodup_foldl_insertNew _ distinct, ?_⟩
  exact List.ne_nil_of_mem ((mem_foldl_insertNew _ old.2 callee).mpr (.inl called))

theorem Built.ofSets {g : CallGraph} (built : Built g) : g.rows.OfSets := by
  induction built with
  | empty => exact Table.OfSets.empty
  | addEdge _ caller callee ih => exact ih.insert caller callee
  | resolve _ map ih => exact ofSets_resolve ih map
  | relist _ again ih => exact again.ofSets ih

theorem ofSets_addEdges {g : CallGraph} (sets : g.rows.OfSets)
    (edges : List (MethodId × MethodId)) :
    (g.addEdges edges).rows.OfSets := by
  unfold addEdges
  induction edges generalizing g with
  | nil => exact sets
  | cons edge edges ih => exact ih (sets.insert edge.1 edge.2)

theorem lists_sortedRows {g : CallGraph} {caller callee : MethodId} :
    Table.Lists g.sortedRows caller callee ↔ (caller, callee) ∈ g.edges := by
  simp only [mem_edges_iff_lists, Table.Lists, sortedRows, List.mem_mergeSort, List.mem_map]
  constructor
  · rintro ⟨_, ⟨row, present, rfl⟩, rfl, called⟩
    exact ⟨row, present, rfl, Text.mem_sortTexts.mp called⟩
  · rintro ⟨row, present, rfl, called⟩
    exact ⟨_, ⟨row, present, rfl⟩, rfl, Text.mem_sortTexts.mpr called⟩

theorem strict_sortedRows {g : CallGraph} (sets : g.rows.OfSets) :
    g.sortedRows.Pairwise fun a b => a.1 < b.1 := by
  apply strict_sortBy Prod.fst
  rw [List.map_map]
  exact sets.keys

theorem strict_of_mem_sortedRows {g : CallGraph} (sets : g.rows.OfSets)
    {row : MethodId × List MethodId} (member : row ∈ g.sortedRows) : row.2 ≠ [] ∧
    row.2.Pairwise (· < ·) := by
  obtain ⟨old, present, rfl⟩ := List.mem_map.mp (List.mem_mergeSort.mp member)
  obtain ⟨distinct, filled⟩ := sets.rows old present
  obtain ⟨callee, called⟩ := List.exists_mem_of_ne_nil old.2 filled
  exact ⟨List.ne_nil_of_mem (Text.mem_sortTexts.mpr called), Text.strict_sortTexts distinct⟩

theorem nodup_keys_sortedRows {g : CallGraph} (sets : g.rows.OfSets) :
    (Table.keys g.sortedRows).Nodup := by
  apply List.Pairwise.map _ _ (strict_sortedRows sets)
  intro a b below same
  rw [same] at below
  exact String.lt_irrefl _ below

theorem mem_row_iff {g : CallGraph} (sets : g.rows.OfSets) {row : MethodId × List MethodId}
    (member : row ∈ g.sortedRows) (callee : MethodId) : callee ∈ row.2 ↔
    (row.1, callee) ∈ g.edges := by
  rw [← lists_sortedRows]
  constructor
  · intro called
    exact ⟨row, member, rfl, called⟩
  · rintro ⟨other, present, same, called⟩
    have found := Table.get?_of_mem (nodup_keys_sortedRows sets) present
    rw [same, Table.get?_of_mem (nodup_keys_sortedRows sets) member] at found
    rw [Option.some.inj found]
    exact called

theorem mem_sortedRows_of_edges {g h : CallGraph} (sets : g.rows.OfSets) (sets' : h.rows.OfSets)
    (same : ∀ edge, edge ∈ g.edges ↔ edge ∈ h.edges) {row : MethodId × List MethodId}
    (member : row ∈ g.sortedRows) :
    row ∈ h.sortedRows := by
  obtain ⟨filled, ascends⟩ := strict_of_mem_sortedRows sets member
  obtain ⟨callee, called⟩ := List.exists_mem_of_ne_nil row.2 filled
  have edge := (same _).mp ((mem_row_iff sets member callee).mp called)
  obtain ⟨other, present, key, _⟩ := lists_sortedRows.mpr edge
  have items : row.2 = other.2 := by
    apply eq_of_strict id ascends (strict_of_mem_sortedRows sets' present).2
    intro x
    rw [mem_row_iff sets member, mem_row_iff sets' present, key]
    exact same _
  rw [Prod.ext key.symm items]
  exact present

theorem sortedRows_eq_iff {g h : CallGraph} (sets : g.rows.OfSets) (sets' : h.rows.OfSets) :
    g.sortedRows = h.sortedRows ↔ ∀ edge, edge ∈ g.edges ↔ edge ∈ h.edges := by
  constructor
  · rintro rows ⟨caller, callee⟩
    rw [← lists_sortedRows, ← lists_sortedRows, rows]
  · intro same
    apply eq_of_strict Prod.fst (strict_sortedRows sets) (strict_sortedRows sets')
    intro row
    exact ⟨mem_sortedRows_of_edges sets sets' same,
      mem_sortedRows_of_edges sets' sets fun edge => (same edge).symm⟩

theorem nodup_edges {g : CallGraph} (sets : g.rows.OfSets) : g.edges.Nodup := by
  unfold edges
  rw [List.nodup_flatMap]
  refine ⟨?_, ?_⟩
  · intro row present
    exact (sets.rows row present).1.map fun _ _ same => (Prod.mk.inj same).2
  · have keys : g.rows.Pairwise fun a b => a.1 ≠ b.1 := List.pairwise_map.mp sets.keys
    refine keys.imp ?_
    intro a b apart edge first second
    obtain ⟨_, _, rfl⟩ := List.mem_map.mp first
    obtain ⟨_, _, same⟩ := List.mem_map.mp second
    exact apart (Prod.mk.inj same).1.symm

theorem length_edges_eq {g h : CallGraph} (sets : g.rows.OfSets) (sets' : h.rows.OfSets)
    (same : ∀ edge, edge ∈ g.edges ↔ edge ∈ h.edges) : g.edges.length = h.edges.length :=
  ((List.perm_ext_iff_of_nodup (nodup_edges sets) (nodup_edges sets')).mpr same).length_eq

theorem resolve_added (g : CallGraph) (map : Implementers) :
    (g.resolve map).added = (g.resolve map).graph.edges.length - g.edges.length := by
  simp [resolve, edges, List.length_flatMap]

theorem mem_edges_resolve_of_same {g h : CallGraph} {map map' : Implementers}
    (edges : ∀ edge, edge ∈ g.edges ↔ edge ∈ h.edges) (sets : map.OfSets) (sets' : map'.OfSets)
    (listed : ∀ interface type, map.Lists interface type ↔ map'.Lists interface type)
    (edge : MethodId × MethodId) :
    edge ∈ (g.resolve map).graph.edges ↔ edge ∈ (h.resolve map').graph.edges := by
  have targets (callee target : MethodId) : target ∈ interfaceTargets map callee ↔
      target ∈ interfaceTargets map' callee := by
    simp only [interfaceTargets, List.mem_map, ← sets.lists_iff, ← sets'.lists_iff, listed]
  obtain ⟨caller, callee⟩ := edge
  simp only [mem_edges_resolve, edges, targets]

end CallGraph

theorem ofSets_implementers (types : List CompiledType) : (implementers types).OfSets := by
  have each (name : String) (interfaces : List String) (map : Implementers) (sets : map.OfSets) :
      (interfaces.foldl (fun map interface => map.modify interface [] (insertNew name))
        map).OfSets := by
    induction interfaces generalizing map with
    | nil => exact sets
    | cons interface interfaces ih => exact ih _ (sets.insert interface name)
  have all (map : Implementers) (sets : map.OfSets) : (types.foldl (fun map type =>
      type.interfaces.foldl (fun map interface => map.modify interface [] (insertNew type.name))
        map) map).OfSets := by
    induction types generalizing map with
    | nil => exact sets
    | cons type types ih => exact ih _ (each type.name type.interfaces map sets)
  exact all [] Table.OfSets.empty

theorem lists_implementers (types : List CompiledType) (interface name : String) :
    (implementers types).Lists interface name ↔ ∃ type ∈ types, interface ∈ type.interfaces ∧
    name = type.name :=
  (ofSets_implementers types).lists_iff.trans (mem_implementers types interface name)

namespace Run.Extraction

theorem addType_ofSets (prefixes : List String) (type : CompiledType) (found : Extraction)
    (sets : found.graph.rows.OfSets) : (found.addType prefixes type).1.graph.rows.OfSets := by
  rw [graph_addType, GraphRun.addType_outcome]
  cases typeCalls type with
  | ok calls => exact CallGraph.ofSets_addEdges sets _
  | error e => exact sets

theorem addTypes_ofSets (prefixes : List String) (types : List CompiledType) (found : Extraction)
    (sets : found.graph.rows.OfSets) : (found.addTypes prefixes types).1.graph.rows.OfSets := by
  induction types generalizing found with
  | nil => exact sets
  | cons type rest ih =>
    have first := addType_ofSets prefixes type found sets
    rw [addTypes]
    split
    · rename_i next step
      rw [step] at first
      exact ih next first
    · rename_i next e step
      rwa [step] at first

end Run.Extraction

theorem directCall_perm {types types' : List CompiledType} (perm : types.Perm types')
    (prefixes : List String) (caller callee : MethodId) : DirectCall types prefixes caller callee ↔
    DirectCall types' prefixes caller callee := by
  simp only [DirectCall, perm.mem_iff]

def extracted (prefixes : List String) (types : List CompiledType) : CallGraph :=
  (Run.Extraction.addTypes prefixes types {}).1.graph

theorem mem_edges_extracted {prefixes : List String} {types : List CompiledType}
    (formatOnly : ∀ type ∈ types, ∀ code, typeCalls type ≠ .error (.unlistedWide code))
    (caller callee : MethodId) :
    (caller, callee) ∈ (extracted prefixes types).edges ↔
    DirectCall types prefixes caller callee := by
  obtain ⟨last, run, edges⟩ := Run.Extraction.addTypes_edges prefixes types {} formatOnly
  rw [extracted, run, edges]
  simp [CallGraph.edges, CallGraph.empty]

/-- Types whose calls are extracted and resolved. The sets in between are listed in any order. -/
structure Resolution (prefixes : List String) (types : List CompiledType) where
  calls : CallGraph
  interfaces : Implementers
  graph : CallGraph
  extracts : (extracted prefixes types).rows.Relisted calls.rows
  implements : (implementers types).Relisted interfaces
  resolves : (calls.resolve interfaces).graph.rows.Relisted graph.rows

namespace Resolution

variable {prefixes : List String} {types : List CompiledType} (r : Resolution prefixes types)

theorem calls_ofSets : r.calls.rows.OfSets :=
  r.extracts.ofSets (Run.Extraction.addTypes_ofSets prefixes types {} Table.OfSets.empty)

theorem graph_ofSets : r.graph.rows.OfSets :=
  r.resolves.ofSets (CallGraph.ofSets_resolve r.calls_ofSets r.interfaces)

theorem mem_calls
    (formatOnly : ∀ type ∈ types, ∀ code, typeCalls type ≠ .error (.unlistedWide code))
    (caller callee : MethodId) : (caller, callee) ∈ r.calls.edges ↔
    DirectCall types prefixes caller callee := by
  rw [← mem_edges_extracted formatOnly, CallGraph.mem_edges_iff_lists,
    CallGraph.mem_edges_iff_lists]
  exact r.extracts.lists
    (Run.Extraction.addTypes_ofSets prefixes types {} Table.OfSets.empty) caller callee

theorem lists_interfaces (interface name : String) :
    r.interfaces.Lists interface name ↔ ∃ type ∈ types, interface ∈ type.interfaces ∧
    name = type.name :=
  (r.implements.lists (ofSets_implementers types) interface name).trans
    (lists_implementers types interface name)

theorem mem_graph (edge : MethodId × MethodId) :
    edge ∈ r.graph.edges ↔ edge ∈ (r.calls.resolve r.interfaces).graph.edges := by
  obtain ⟨caller, callee⟩ := edge
  rw [CallGraph.mem_edges_iff_lists, CallGraph.mem_edges_iff_lists]
  exact r.resolves.lists (CallGraph.ofSets_resolve r.calls_ofSets r.interfaces) caller callee

def plain (prefixes : List String) (types : List CompiledType) : Resolution prefixes types where
  calls := extracted prefixes types
  interfaces := implementers types
  graph := ((extracted prefixes types).resolve (implementers types)).graph
  extracts := .refl _
  implements := .refl _
  resolves := .refl _

end Resolution

/-- The sorted rows of a graph and the callees in each of them ascend strictly, in the order of code
points, and no row is empty. Graphs have the same sorted rows just if they have the same edges. So
the order of types does not matter: all of them are extracted, and the graph, the interfaces and the
number of edges that resolution adds are the same. -/
theorem sortedRows_canonical :
    (∀ g : CallGraph, g.Built → (g.sortedRows.map Prod.fst).Pairwise (· < ·) ∧
      ∀ row ∈ g.sortedRows, row.2 ≠ [] ∧ row.2.Pairwise (· < ·)) ∧
    (∀ g h : CallGraph, g.Built → h.Built →
      (g.sortedRows = h.sortedRows ↔ ∀ edge, edge ∈ g.edges ↔ edge ∈ h.edges)) ∧
    ∀ (prefixes : List String) (types types' : List CompiledType), types.Perm types' →
      (∀ type ∈ types, ∀ code, typeCalls type ≠ .error (.unlistedWide code)) →
        (Run.Extraction.addTypes prefixes types' {}).2 = none ∧
        ∀ (r : Resolution prefixes types) (r' : Resolution prefixes types'),
          r.graph.sortedRows = r'.graph.sortedRows ∧ r.interfaces.Relisted r'.interfaces ∧
            (r.calls.resolve r.interfaces).added = (r'.calls.resolve r'.interfaces).added := by
  refine ⟨?_, ?_, ?_⟩
  · intro g built
    refine ⟨List.pairwise_map.mpr (CallGraph.strict_sortedRows built.ofSets), ?_⟩
    intro row member
    exact CallGraph.strict_of_mem_sortedRows built.ofSets member
  · intro g h built built'
    exact CallGraph.sortedRows_eq_iff built.ofSets built'.ofSets
  · intro prefixes types types' perm formatOnly
    have formatOnly' : ∀ type ∈ types', ∀ code, typeCalls type ≠ .error (.unlistedWide code) := by
      intro type member
      exact formatOnly type (perm.mem_iff.mpr member)
    obtain ⟨last, run, _⟩ := Run.Extraction.addTypes_edges prefixes types' {} formatOnly'
    refine ⟨congrArg Prod.snd run, ?_⟩
    intro r r'
    have calls (edge : MethodId × MethodId) : edge ∈ r.calls.edges ↔ edge ∈ r'.calls.edges := by
      obtain ⟨caller, callee⟩ := edge
      rw [r.mem_calls formatOnly, r'.mem_calls formatOnly']
      exact directCall_perm perm prefixes caller callee
    have listed (interface name : String) : r.interfaces.Lists interface name ↔
        r'.interfaces.Lists interface name := by
      simp only [r.lists_interfaces, r'.lists_interfaces, perm.mem_iff]
    have sets := r.implements.ofSets (ofSets_implementers types)
    have sets' := r'.implements.ofSets (ofSets_implementers types')
    have resolved := CallGraph.mem_edges_resolve_of_same calls sets sets' listed
    refine ⟨?_, sets.relisted sets' listed, ?_⟩
    · apply (CallGraph.sortedRows_eq_iff r.graph_ofSets r'.graph_ofSets).mpr
      intro edge
      rw [r.mem_graph, r'.mem_graph]
      exact resolved edge
    · rw [CallGraph.resolve_added, CallGraph.resolve_added,
        CallGraph.length_edges_eq r.calls_ofSets r'.calls_ofSets calls,
        CallGraph.length_edges_eq (CallGraph.ofSets_resolve r.calls_ofSets r.interfaces)
          (CallGraph.ofSets_resolve r'.calls_ofSets r'.interfaces) resolved]

def shapeListing : Resolution MethodId.platformPrefixes shapeTypes.reverse where
  calls := ⟨[("app.Main.run", ["app.Shape.area"])]⟩
  interfaces := [("app.Shape", ["app.Disc"])]
  graph := ⟨[("app.Main.run", ["app.Disc.area", "app.Shape.area"])]⟩
  extracts := by
    have rows : (extracted MethodId.platformPrefixes shapeTypes.reverse).rows =
        [("app.Main.run", ["app.Shape.area"])] := by
      decide +kernel
    rw [rows]
    exact .refl _
  implements := by
    have rows : implementers shapeTypes.reverse = [("app.Shape", ["app.Disc"])] := by decide +kernel
    rw [rows]
    exact .refl _
  resolves := by
    refine ⟨List.Perm.refl _, ?_⟩
    intro key
    by_cases here : "app.Main.run" = key
    · subst here
      exact .some (List.Perm.swap "app.Disc.area" "app.Shape.area" [])
    · simp only [CallGraph.resolve, List.map_cons, List.map_nil, Table.get?, if_neg here]
      exact .none

theorem sortedRows_shapes : shapeTypes.Perm shapeTypes.reverse ∧
    (∀ type ∈ shapeTypes, ∀ code, typeCalls type ≠ .error (.unlistedWide code)) ∧
    (Resolution.plain MethodId.platformPrefixes shapeTypes).graph.sortedRows =
      [("app.Main.run", ["app.Disc.area", "app.Shape.area"])] ∧
    ((extracted MethodId.platformPrefixes shapeTypes).resolve (implementers shapeTypes)).added = 1 ∧
    ((CallGraph.empty.addEdge "a.A.f" "a.B.g").addEdge "a.A.f" "a.A.f").sortedRows =
      ((CallGraph.empty.addEdge "a.A.f" "a.A.f").addEdge "a.A.f" "a.B.g").sortedRows := by
  have perm := (List.reverse_perm shapeTypes).symm
  obtain ⟨_, listings⟩ :=
    sortedRows_canonical.2.2 MethodId.platformPrefixes shapeTypes shapeTypes.reverse perm
    shapeTypes_formatOnly
  obtain ⟨rows, _, added⟩ := listings (Resolution.plain _ _) shapeListing
  refine ⟨perm, shapeTypes_formatOnly, rows.trans ?_, added.trans (by decide +kernel), ?_⟩
  · have callees : Text.sortTexts ["app.Disc.area", "app.Shape.area"] =
        ["app.Disc.area", "app.Shape.area"] :=
      List.mergeSort_of_pairwise (by decide)
    simp only [shapeListing, CallGraph.sortedRows, List.map_cons, List.map_nil, callees,
      List.mergeSort_singleton]
  · apply (sortedRows_canonical.2.1 _ _ ((CallGraph.Built.empty.addEdge _ _).addEdge _ _)
      ((CallGraph.Built.empty.addEdge _ _).addEdge _ _)).mpr
    rintro ⟨caller, callee⟩
    simp only [CallGraph.mem_edges_addEdge]
    exact or_right_comm

end CallAtlas
