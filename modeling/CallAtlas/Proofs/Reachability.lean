import CallAtlas.Proofs.CanonicalGraph
import CallAtlas.Proofs.Exclusion
import CallAtlas.Proofs.Exploration

/-!
What the searches of a call graph find: the first exactly what an entry reaches by calls, the second
exactly what it reaches without a call of a method that is left out.
-/

namespace CallAtlas.CallGraph

open Relation

/-- What a table of sets allows: no caller has two rows, and no row names a callee twice. A row may
be empty. -/
structure Proper (g : CallGraph) : Prop where
  keys : g.rows.keys.Nodup
  rows : ∀ row ∈ g.rows, row.2.Nodup

def Calls (g : CallGraph) (caller callee : MethodId) : Prop := (caller, callee) ∈ g.edges

def Follows (g : CallGraph) (prefixes : List String) (caller callee : MethodId) : Prop :=
  g.Calls caller callee ∧ ¬ Excluded prefixes callee

variable {g h : CallGraph}

theorem Proper.mem_callees (proper : g.Proper) (caller callee : MethodId) :
    callee ∈ g.callees caller ↔ g.Calls caller callee := by
  constructor
  · exact mem_edges_of_mem_callees
  · intro called
    obtain ⟨⟨key, row⟩, present, rfl, member⟩ := mem_edges.mp called
    rw [callees, Table.get?_of_mem proper.keys present]
    exact member

theorem Proper.nodup_callees (proper : g.Proper) (m : MethodId) : (g.callees m).Nodup := by
  rw [callees]
  cases found : g.rows.get? m with
  | none => exact List.nodup_nil
  | some row => exact proper.rows _ (Table.mem_of_get? found)

theorem proper_ofRows (rows : List (MethodId × List MethodId)) : (ofRows rows).Proper := by
  obtain ⟨keys, among⟩ := Table.ofPairs_keys_subset (rows.map fun row => (row.1, distinct row.2))
  refine ⟨keys, ?_⟩
  intro row member
  obtain ⟨given, _, rfl⟩ := List.mem_map.mp (among member)
  exact nodup_foldl_insertNew given.2 List.nodup_nil

theorem proper_of_ofSets (sets : g.rows.OfSets) : g.Proper :=
  ⟨sets.keys, fun row member => (sets.rows row member).1⟩

theorem callees_ne_nil (g : CallGraph) (m : MethodId) : g.callees m ≠ [] ↔
    ∃ callee, callee ∈ g.callees m := by
  constructor
  · exact List.exists_mem_of_ne_nil _
  · rintro ⟨callee, called⟩
    exact List.ne_nil_of_mem called

theorem callees_perm (again : g.rows.Relisted h.rows) (m : MethodId) :
    (g.callees m).Perm (h.callees m) :=
  Table.perm_getD_of_rel (again.rows m)

theorem Proper.mem_callees_relisted (proper : g.Proper) (again : g.rows.Relisted h.rows)
    (caller callee : MethodId) :
    callee ∈ h.callees caller ↔ g.Calls caller callee := by
  rw [← proper.mem_callees, (callees_perm again caller).mem_iff]

theorem nodup_reachable (g : CallGraph) (entry : MethodId) : (g.reachable entry).Nodup :=
  (reachFrom_explores g [] [entry]).nodup List.nodup_nil

theorem mem_reachable (g : CallGraph) (entry m : MethodId) :
    m ∈ g.reachable entry ↔ ReflTransGen (fun caller callee => callee ∈ g.callees caller) entry m :=
  (reachFrom_explores g [] [entry]).mem_iff m

theorem mem_reachable_relisted (proper : g.Proper) (again : g.rows.Relisted h.rows)
    (entry m : MethodId) :
    m ∈ h.reachable entry ↔ ReflTransGen g.Calls entry m := by
  have same : (fun caller callee => callee ∈ h.callees caller) = g.Calls := by
    funext caller callee
    exact propext (proper.mem_callees_relisted again caller callee)
  rw [mem_reachable, same]

theorem mem_reachable_of_callee {entry caller callee : MethodId}
    (reached : caller ∈ g.reachable entry) (called : callee ∈ g.callees caller) :
    callee ∈ g.reachable entry := by
  rw [mem_reachable] at reached ⊢
  exact reached.tail called

theorem mem_rows_subgraph (g : CallGraph) (entry : MethodId) (row : MethodId × List MethodId) :
    row ∈ (g.subgraph entry).rows ↔ row.1 ∈ g.reachable entry ∧ row.2 = g.callees row.1 ∧
    row.2 ≠ [] := by
  obtain ⟨key, items⟩ := row
  simp only [subgraph, List.mem_filter, List.mem_map, Prod.mk.injEq, Bool.not_eq_true',
    List.isEmpty_eq_false_iff]
  constructor
  · rintro ⟨⟨m, reached, rfl, rfl⟩, filled⟩
    exact ⟨reached, rfl, filled⟩
  · rintro ⟨reached, rfl, filled⟩
    exact ⟨⟨key, reached, rfl, rfl⟩, filled⟩

theorem methods_subgraph (g : CallGraph) (entry : MethodId) :
    (g.subgraph entry).methods = (g.reachable entry).filter fun m => !(g.callees m).isEmpty := by
  rw [methods, Table.keys, subgraph, List.filter_map, List.map_map]
  exact List.map_id _

theorem mem_methods_subgraph (g : CallGraph) (entry m : MethodId) :
    m ∈ (g.subgraph entry).methods ↔ m ∈ g.reachable entry ∧ g.callees m ≠ [] := by
  rw [methods_subgraph, List.mem_filter, Bool.not_eq_true', List.isEmpty_eq_false_iff]

theorem nodup_methods_subgraph (g : CallGraph) (entry : MethodId) :
    (g.subgraph entry).methods.Nodup := by
  rw [methods_subgraph]
  exact (nodup_reachable g entry).filter _

theorem Proper.subgraph (proper : g.Proper) (entry : MethodId) : (g.subgraph entry).Proper := by
  refine ⟨nodup_methods_subgraph g entry, ?_⟩
  intro row member
  obtain ⟨_, items, _⟩ := (mem_rows_subgraph g entry row).mp member
  rw [items]
  exact proper.nodup_callees row.1

theorem Proper.relist (proper : g.Proper) (again : g.rows.Relisted h.rows) : h.Proper := by
  have keys : h.rows.keys.Nodup := again.keys.nodup_iff.mp proper.keys
  refine ⟨keys, ?_⟩
  rintro ⟨caller, items⟩ member
  have row : h.callees caller = items := by
    rw [callees, Table.get?_of_mem keys member]
    rfl
  rw [← row]
  exact (callees_perm again caller).nodup_iff.mp (proper.nodup_callees caller)

/-- Whatever the order is in which the sets of a graph are listed, the search finds just what an
entry reaches. The subgraph has rows for those of them that call something; each row has all
callees, and these are reached as well. -/
theorem reachable_exact (proper : g.Proper) (again : g.rows.Relisted h.rows) (entry : MethodId) :
    (h.reachable entry).Nodup ∧ (∀ m, m ∈ h.reachable entry ↔ ReflTransGen g.Calls entry m) ∧
    (h.subgraph entry).Proper ∧
    (∀ m, m ∈ (h.subgraph entry).methods ↔ ReflTransGen g.Calls entry m ∧
      ∃ callee, g.Calls m callee) ∧ ∀ row ∈ (h.subgraph entry).rows, ∀ callee,
      (callee ∈ row.2 ↔ g.Calls row.1 callee) ∧ (callee ∈ row.2 → callee ∈ h.reachable entry) := by
  have calls := proper.mem_callees_relisted again
  refine ⟨nodup_reachable h entry, mem_reachable_relisted proper again entry,
    (proper.relist again).subgraph entry, ?_, ?_⟩
  · intro m
    rw [mem_methods_subgraph, mem_reachable_relisted proper again, callees_ne_nil]
    simp only [calls]
  · intro row member callee
    obtain ⟨reached, items, _⟩ := (mem_rows_subgraph h entry row).mp member
    rw [items]
    exact ⟨calls row.1 callee, mem_reachable_of_callee reached⟩

def ringGraph : CallGraph :=
  .ofRows [("a.A.f", ["a.B.g", "a.C.h"]), ("a.B.g", ["a.A.f", "a.E.k"]), ("a.C.h", []),
    ("a.D.i", ["a.A.f"])]

def ringListing : CallGraph :=
  ⟨[("a.C.h", []), ("a.B.g", ["a.E.k", "a.A.f"]), ("a.A.f", ["a.C.h", "a.B.g"]),
    ("a.D.i", ["a.A.f"])]⟩

theorem ringGraph_rows : ringGraph.rows =
    [("a.A.f", ["a.B.g", "a.C.h"]), ("a.B.g", ["a.A.f", "a.E.k"]), ("a.C.h", []),
      ("a.D.i", ["a.A.f"])] := by
  decide

theorem ringGraph_proper : ringGraph.Proper := proper_ofRows _

theorem ringGraph_relisted : ringGraph.rows.Relisted ringListing.rows := by
  apply Table.relisted_of_rows ringGraph_proper.keys
  · decide
  · simp only [ringGraph_rows, List.forall_mem_cons, List.not_mem_nil, false_imp_iff,
      implies_true, and_true]
    refine ⟨?_, ?_, ?_, ?_⟩
    · exact ⟨_, rfl, List.Perm.swap "a.C.h" "a.B.g" []⟩
    · exact ⟨_, rfl, List.Perm.swap "a.E.k" "a.A.f" []⟩
    · exact ⟨_, rfl, List.Perm.refl _⟩
    · exact ⟨_, rfl, List.Perm.refl _⟩

theorem reachable_exact_ring : ringGraph.Proper ∧ ringGraph.rows.Relisted ringListing.rows ∧
    "a.E.k" ∈ ringListing.reachable "a.A.f" ∧ "a.B.g" ∈ (ringListing.subgraph "a.A.f").methods ∧
    "a.C.h" ∉ (ringListing.subgraph "a.A.f").methods := by
  obtain ⟨_, reached, _, filled, _⟩ := reachable_exact ringGraph_proper ringGraph_relisted "a.A.f"
  have first : ringGraph.Calls "a.A.f" "a.B.g" := by
    rw [Calls]
    decide
  have second : ringGraph.Calls "a.B.g" "a.E.k" := by
    rw [Calls]
    decide
  refine ⟨ringGraph_proper, ringGraph_relisted, ?_, ?_, ?_⟩
  · exact (reached _).mpr ((ReflTransGen.single first).tail second)
  · exact (filled _).mpr ⟨.single first, _, second⟩
  · intro listed
    obtain ⟨_, callee, call⟩ := (filled _).mp listed
    rw [← ringGraph_proper.mem_callees] at call
    cases call

theorem mem_followed (proper : g.Proper) (prefixes : List String) (caller callee : MethodId) :
    callee ∈ g.followed prefixes caller ↔ g.Follows prefixes caller callee := by
  rw [followed, Text.mem_sortTexts, List.mem_filter, proper.mem_callees, Bool.not_eq_true',
    isExcluded_eq_false, Follows, Excluded]
  simp

theorem mem_walk (proper : g.Proper) (prefixes : List String) (entry m : MethodId) :
    m ∈ g.walk prefixes entry ↔ ReflTransGen (g.Follows prefixes) entry m := by
  have same : (fun caller callee => callee ∈ g.followed prefixes caller) = g.Follows prefixes := by
    funext caller callee
    rw [mem_followed proper]
  rw [← same]
  exact (walkFrom_explores g prefixes [] [entry]).mem_iff m

theorem walk_complete_iff (proper : g.Proper) (prefixes : List String) (entry : MethodId) :
    (∀ m, m ∈ g.walk prefixes entry ↔ m ∈ g.reachable entry) ↔
      ∀ m ∈ g.reachable entry, m ≠ entry → ¬ Excluded prefixes m := by
  have reached (m : MethodId) : m ∈ g.reachable entry ↔ ReflTransGen g.Calls entry m :=
    mem_reachable_relisted proper (.refl _) entry m
  constructor
  · intro same m member apart
    rcases ReflTransGen.cases_tail
      ((mem_walk proper prefixes entry m).mp ((same m).mpr member)) with here | ⟨_, _, last⟩
    · exact (apart here).elim
    · exact last.2
  · intro allowed m
    rw [mem_walk proper]
    constructor
    · intro path
      exact (reached m).mpr (ReflTransGen.mono (fun _ _ step => step.1) _ _ path)
    · intro member
      have path := (reached m).mp member
      clear member
      induction path with
      | refl => exact .refl
      | @tail caller callee before call ih =>
        by_cases back : callee = entry
        · exact back ▸ .refl
        · exact ih.tail ⟨call, allowed callee ((reached callee).mpr (before.tail call)) back⟩

/-- A walk names no method twice and begins with its entry, which may be left out itself. It goes
exactly to what the entry reaches by calls of methods that are not left out, and this is all that
the entry reaches just if nothing of that, the entry apart, is left out. -/
theorem walk_exact (proper : g.Proper) (prefixes : List String) (entry : MethodId) :
    (g.walk prefixes entry).Nodup ∧ (g.walk prefixes entry).head? = some entry ∧
    (∀ m, m ∈ g.walk prefixes entry ↔ ReflTransGen (g.Follows prefixes) entry m) ∧
    ((∀ m, m ∈ g.walk prefixes entry ↔ m ∈ g.reachable entry) ↔
      ∀ m ∈ g.reachable entry, m ≠ entry → ¬ Excluded prefixes m) := by
  have run := walkFrom_explores g prefixes [] [entry]
  exact ⟨run.nodup List.nodup_nil, run.head?_eq, mem_walk proper prefixes entry,
    walk_complete_iff proper prefixes entry⟩

/-- An entry of the platform. It calls back through the platform and directly. -/
def callbackGraph : CallGraph :=
  CallGraph.empty.addEdges
    [("java.T.run", "a.A.f"), ("java.T.run", "java.U.call"), ("java.U.call", "a.A.f"),
    ("java.U.call", "a.B.g"), ("a.A.f", "java.T.run")]

theorem callbackGraph_proper : callbackGraph.Proper :=
  proper_of_ofSets (ofSets_addEdges Table.OfSets.empty _)

theorem walk_exact_callback : callbackGraph.Proper ∧
    (callbackGraph.walk ["java."] "java.T.run").head? = some "java.T.run" ∧
    "a.A.f" ∈ callbackGraph.walk ["java."] "java.T.run" ∧
    "java.U.call" ∉ callbackGraph.walk ["java."] "java.T.run" ∧
    ¬ ∀ m, m ∈ callbackGraph.walk ["java."] "java.T.run" ↔
    m ∈ callbackGraph.reachable "java.T.run" := by
  obtain ⟨_, head, walked, complete⟩ := walk_exact callbackGraph_proper ["java."] "java.T.run"
  have direct : callbackGraph.Calls "java.T.run" "a.A.f" := by
    rw [Calls]
    decide
  have through : callbackGraph.Calls "java.T.run" "java.U.call" := by
    rw [Calls]
    decide
  have kept : ¬ Excluded ["java."] "a.A.f" := by
    simp only [Excluded, List.mem_singleton, exists_eq_left]
    decide
  have excluded : Excluded ["java."] "java.U.call" := ⟨"java.", List.mem_cons_self, by decide⟩
  refine ⟨callbackGraph_proper, head, (walked _).mpr (.single ⟨direct, kept⟩), ?_, ?_⟩
  · intro member
    rcases ReflTransGen.cases_tail ((walked _).mp member) with here | ⟨_, _, last⟩
    · revert here
      decide
    · exact last.2 excluded
  · intro same
    have reached : "java.U.call" ∈ callbackGraph.reachable "java.T.run" :=
      (mem_reachable_relisted callbackGraph_proper (.refl _) _ _).mpr (.single through)
    exact complete.mp same _ reached (by decide) excluded

end CallAtlas.CallGraph
