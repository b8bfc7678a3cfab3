import CallAtlas.Proofs.CanonicalGraph
import Mathlib.Data.Finset.Card

/-!
Following calls through interfaces is one exact expansion of the edges. It can be done part by part,
and where no implementer is itself an interface of the map there is nothing left to follow
afterwards.
-/

namespace CallAtlas

/-- `target` is the method of `callee`'s name in a class that the map lists for the owner of
`callee`. -/
def Implementers.Leads (map : Implementers) (callee target : MethodId) : Prop :=
  ∃ owner member types type, MethodId.Splits callee owner member ∧
    map.get? owner = some types ∧ type ∈ types ∧ target = type ++ "." ++ member

/-- No class that the map lists is an interface of the map. -/
def Implementers.Flat (map : Implementers) : Prop :=
  ∀ interface type, map.Lists interface type → type ∉ map.keys

theorem mem_interfaceTargets_iff {map : Implementers} {callee target : MethodId} :
    target ∈ interfaceTargets map callee ↔ map.Leads callee target := by
  simp only [interfaceTargets, Implementers.Leads, MethodId.splits_iff, List.mem_map]
  constructor
  · rintro ⟨type, listed, rfl⟩
    cases found : map.get? (MethodId.owner callee) with
    | none =>
      rw [found] at listed
      cases listed
    | some types =>
      rw [found] at listed
      exact ⟨_, _, types, type, ⟨rfl, rfl⟩, found, listed, rfl⟩
  · rintro ⟨_, _, types, type, ⟨rfl, rfl⟩, found, listed, rfl⟩
    exact ⟨type, by rw [found]; exact listed, rfl⟩

namespace Implementers

variable {map : Implementers} {callee target : MethodId}

theorem Leads.owner (leads : map.Leads callee target) :
    ∃ interface, map.Lists interface (MethodId.owner target) := by
  obtain ⟨owner, member, types, type, splits, found, listed, rfl⟩ := leads
  obtain ⟨_, rfl⟩ := MethodId.splits_iff.mp splits
  rw [MethodId.owner_append _ _ (MethodId.notMem_member callee)]
  exact ⟨owner, (owner, types), Table.mem_of_get? found, rfl, listed⟩

theorem Flat.not_leads (flat : map.Flat) (leads : map.Leads callee target) (next : MethodId) :
    ¬ map.Leads target next := by
  rintro ⟨owner, member, types, type, splits, found, _, _⟩
  obtain ⟨interface, listed⟩ := leads.owner
  obtain ⟨rfl, _⟩ := MethodId.splits_iff.mp splits
  exact flat interface _ listed (List.mem_map_of_mem (Table.mem_of_get? found))

end Implementers

namespace CallGraph

variable {g h : CallGraph} {map : Implementers}

def union (g h : CallGraph) : CallGraph := g.addEdges h.edges

theorem mem_edges_union (edge : MethodId × MethodId) : edge ∈ (g.union h).edges ↔ edge ∈ g.edges ∨
    edge ∈ h.edges :=
  mem_edges_addEdges g h.edges edge.1 edge.2

theorem mem_edges_resolve_iff (caller callee : MethodId) :
    (caller, callee) ∈ (g.resolve map).graph.edges ↔
      (caller, callee) ∈ g.edges ∨ ∃ called, (caller, called) ∈ g.edges ∧
      map.Leads called callee := by
  simp only [mem_edges_resolve, mem_interfaceTargets_iff]
  constructor
  · rintro ⟨called, present, rfl | leads⟩
    · exact .inl present
    · exact .inr ⟨called, present, leads⟩
  · rintro (present | ⟨called, present, leads⟩)
    · exact ⟨callee, present, .inl rfl⟩
    · exact ⟨called, present, .inr leads⟩

theorem edges_subset_resolve : g.edges ⊆ (g.resolve map).graph.edges := by
  rintro ⟨caller, callee⟩ present
  exact (mem_edges_resolve_iff caller callee).mpr (.inl present)

theorem methods_resolve : (g.resolve map).graph.methods = g.methods := by
  simp [resolve, methods, Table.keys]

theorem added_eq_card (sets : g.rows.OfSets) :
    (g.resolve map).added = ((g.resolve map).graph.edges.toFinset \ g.edges.toFinset).card := by
  have kept : g.edges.toFinset ⊆ (g.resolve map).graph.edges.toFinset := by
    intro edge present
    rw [List.mem_toFinset] at present ⊢
    exact edges_subset_resolve present
  rw [Finset.card_sdiff_of_subset kept, List.toFinset_card_of_nodup (nodup_edges sets),
    List.toFinset_card_of_nodup (nodup_edges (ofSets_resolve sets map)), resolve_added]

theorem resolve_union (sets : g.rows.OfSets) (h : CallGraph) :
    ((g.union h).resolve map).graph.rows.Relisted
      ((g.resolve map).graph.union (h.resolve map).graph).rows := by
  have whole : ((g.union h).resolve map).graph.rows.OfSets :=
    ofSets_resolve (ofSets_addEdges sets h.edges) map
  have parts : ((g.resolve map).graph.union (h.resolve map).graph).rows.OfSets :=
    ofSets_addEdges (ofSets_resolve sets map) _
  apply whole.relisted parts
  intro caller callee
  rw [← mem_edges_iff_lists, ← mem_edges_iff_lists]
  simp only [mem_edges_resolve_iff, mem_edges_union]
  constructor
  · rintro ((here | there) | ⟨called, here | there, leads⟩)
    · exact .inl (.inl here)
    · exact .inr (.inl there)
    · exact .inl (.inr ⟨called, here, leads⟩)
    · exact .inr (.inr ⟨called, there, leads⟩)
  · rintro ((here | ⟨called, here, leads⟩) | there | ⟨called, there, leads⟩)
    · exact .inl (.inl here)
    · exact .inr ⟨called, .inl here, leads⟩
    · exact .inl (.inr there)
    · exact .inr ⟨called, .inr there, leads⟩

def Followed (g : CallGraph) (map : Implementers) : Prop :=
  ∀ caller called callee, (caller, called) ∈ g.edges → map.Leads called callee →
    (caller, callee) ∈ g.edges

theorem followed_resolve (flat : map.Flat) : (g.resolve map).graph.Followed map := by
  intro caller called callee present leads
  rcases (mem_edges_resolve_iff caller called).mp present with direct | ⟨first, _, led⟩
  · exact (mem_edges_resolve_iff caller callee).mpr (.inr ⟨called, direct, leads⟩)
  · exact (flat.not_leads led callee leads).elim

theorem Followed.resolve (followed : g.Followed map) (sets : g.rows.OfSets) :
    (g.resolve map).graph = g ∧ (g.resolve map).added = 0 := by
  have row : ∀ row ∈ g.rows, expandRow map row.2 = row.2 := by
    intro row present
    apply foldl_insertNew_of_subset
    intro target member
    obtain ⟨called, inside, leads⟩ := List.mem_flatMap.mp member
    have edge : (row.1, called) ∈ g.edges := mem_edges.mpr ⟨row, present, rfl, inside⟩
    have led := followed row.1 called target edge (mem_interfaceTargets_iff.mp leads)
    rw [mem_edges_iff_lists, sets.lists_iff, Table.get?_of_mem sets.keys present] at led
    exact led
  have same : (g.resolve map).graph = g := by
    apply congrArg CallGraph.mk
    calc g.rows.map (fun row => (row.1, expandRow map row.2))
      _ = g.rows.map id := by
        apply List.map_congr_left
        intro entry present
        rw [row entry present]
        rfl
      _ = g.rows := List.map_id g.rows
  refine ⟨same, ?_⟩
  rw [resolve_added, same, Nat.sub_self]

theorem Followed.relist (followed : g.Followed map) (sets : g.rows.OfSets)
    (again : g.rows.Relisted h.rows) :
    h.Followed map := by
  have edges (caller callee : MethodId) : (caller, callee) ∈ h.edges ↔
      (caller, callee) ∈ g.edges := by
    rw [mem_edges_iff_lists, mem_edges_iff_lists]
    exact again.lists sets caller callee
  intro caller called callee present leads
  exact (edges caller callee).mpr
    (followed caller called callee ((edges caller called).mp present) leads)

/-- Resolution adds to the edges exactly those that the map leads to. The callers stay, and the
count is the number of edges gained. It can be done on the parts of a union. Where no implementer is
an interface of the map, a second resolution, whatever order the sets are listed in, adds nothing
and changes nothing. -/
theorem resolve_exact (built : g.Built) (map : Implementers) :
    (∀ caller callee, (caller, callee) ∈ (g.resolve map).graph.edges ↔
      (caller, callee) ∈ g.edges ∨ ∃ called, (caller, called) ∈ g.edges ∧ map.Leads called callee) ∧
    (g.resolve map).graph.methods = g.methods ∧
    (g.resolve map).added = ((g.resolve map).graph.edges.toFinset \ g.edges.toFinset).card ∧
    (∀ h : CallGraph,
      ((g.union h).resolve map).graph.rows.Relisted
        ((g.resolve map).graph.union (h.resolve map).graph).rows) ∧
    (map.Flat → ∀ again : CallGraph, (g.resolve map).graph.rows.Relisted again.rows →
      (again.resolve map).graph = again ∧ (again.resolve map).added = 0) := by
  refine ⟨mem_edges_resolve_iff, methods_resolve, added_eq_card built.ofSets,
    resolve_union built.ofSets, ?_⟩
  intro flat again relisted
  have sets := ofSets_resolve built.ofSets map
  exact ((followed_resolve flat).relist sets relisted).resolve (relisted.ofSets sets)

/-- Two interfaces with a common implementer, which one caller calls directly as well. -/
def overlapGraph : CallGraph :=
  CallGraph.empty.addEdges [("app.Main.run", "app.Shape.area"), ("app.Main.run", "app.Figure.area"),
    ("app.Main.run", "app.Disc.area"), ("app.Main.stop", "exit")]

def overlapMap : Implementers :=
  [("app.Shape", ["app.Disc", "app.Square"]), ("app.Figure", ["app.Disc"]), ("", ["app.Main"])]

def overlapListing : CallGraph :=
  ⟨[("app.Main.stop", ["app.Main.exit", "exit"]),
    ("app.Main.run", ["app.Square.area", "app.Disc.area", "app.Figure.area", "app.Shape.area"])]⟩

theorem overlapGraph_built : overlapGraph.Built :=
  (((Built.empty.addEdge _ _).addEdge _ _).addEdge _ _).addEdge _ _

theorem overlapListing_relisted :
    (overlapGraph.resolve overlapMap).graph.rows.Relisted overlapListing.rows := by
  have rows : (overlapGraph.resolve overlapMap).graph.rows =
      [("app.Main.run", ["app.Shape.area", "app.Figure.area", "app.Disc.area", "app.Square.area"]),
       ("app.Main.stop", ["exit", "app.Main.exit"])] := by
    decide +kernel
  apply Table.relisted_of_rows (ofSets_resolve overlapGraph_built.ofSets overlapMap).keys
  · rw [rows]
    decide
  · simp only [rows, List.forall_mem_cons, List.not_mem_nil, false_imp_iff, implies_true, and_true]
    exact ⟨⟨_, rfl, by decide⟩, ⟨_, rfl, by decide⟩⟩

theorem overlapMap_flat : overlapMap.Flat := by
  rintro interface type ⟨row, present, rfl, listed⟩
  have apart : ∀ row ∈ overlapMap, ∀ type ∈ row.2, type ∉ overlapMap.keys := by decide
  exact apart row present type listed

theorem resolve_exact_overlap : overlapGraph.Built ∧ overlapMap.Flat ∧
    ("app.Main.run", "app.Square.area") ∈ (overlapGraph.resolve overlapMap).graph.edges ∧
    (overlapGraph.resolve overlapMap).graph.methods = ["app.Main.run", "app.Main.stop"] ∧
    (overlapListing.resolve overlapMap).graph = overlapListing ∧
    (overlapListing.resolve overlapMap).added = 0 := by
  obtain ⟨edges, callers, _, _, again⟩ := resolve_exact overlapGraph_built overlapMap
  refine ⟨overlapGraph_built, overlapMap_flat, ?_, callers.trans (by decide),
    again overlapMap_flat _ overlapListing_relisted⟩
  apply (edges _ _).mpr
  refine .inr ⟨"app.Shape.area", by decide, "app.Shape", "area", _, "app.Square", ?_,
    rfl, by decide, by decide⟩
  exact .dotted (by decide) (by decide)

end CallGraph

end CallAtlas
