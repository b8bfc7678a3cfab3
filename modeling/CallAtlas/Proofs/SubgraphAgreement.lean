import CallAtlas.Proofs.Reachability

/-!
The subgraph of an entry stands for the whole graph: from every method that the entry reaches, all
searches find the same in both.
-/

namespace CallAtlas

namespace CallGraph

variable {g h : CallGraph} {inside : MethodId → Prop}

theorem ofRows_of_proper (proper : g.Proper) : ofRows g.rows = g := by
  have rows : g.rows.map (fun row => (row.1, distinct row.2)) = g.rows := by
    have same : ∀ row ∈ g.rows, (row.1, distinct row.2) = id row := by
      intro row member
      rw [distinct_of_nodup (proper.rows row member)]
      rfl
    rw [List.map_congr_left same, List.map_id]
  rw [ofRows, rows, Table.ofPairs_of_nodup proper.keys]

theorem callees_subgraph {entry m : MethodId} (reached : m ∈ g.reachable entry) :
    (g.subgraph entry).callees m = g.callees m := by
  by_cases filled : g.callees m = []
  · have absent : m ∉ (g.subgraph entry).methods := by
      rw [mem_methods_subgraph]
      exact fun listed => listed.2 filled
    rw [callees_eq_nil_of_notMem absent, filled]
  · have row : (m, g.callees m) ∈ (g.subgraph entry).rows :=
      (mem_rows_subgraph g entry _).mpr ⟨reached, rfl, filled⟩
    have found := Table.get?_of_mem (nodup_methods_subgraph g entry) row
    rw [callees, found, Option.getD_some]

/-- Two graphs have the same callees for certain methods, and these call none but themselves. -/
structure AgreeOn (inside : MethodId → Prop) (g h : CallGraph) : Prop where
  closed : ∀ m, inside m → ∀ callee ∈ g.callees m, inside callee
  same : ∀ m, inside m → (g.callees m).Perm (h.callees m)

namespace AgreeOn

theorem symm (agree : AgreeOn inside g h) : AgreeOn inside h g := by
  constructor
  · intro m within callee called
    exact agree.closed m within callee ((agree.same m within).mem_iff.mpr called)
  · intro m within
    exact (agree.same m within).symm

theorem inside_of_reachable (agree : AgreeOn inside g h) {start m : MethodId}
    (within : inside start) (reached : m ∈ g.reachable start) : inside m := by
  rw [mem_reachable] at reached
  induction reached with
  | refl => exact within
  | tail _ called ih => exact agree.closed _ ih _ called

theorem reachable_subset (agree : AgreeOn inside g h) {start : MethodId} (within : inside start) :
    g.reachable start ⊆ h.reachable start := by
  intro m reached
  rw [mem_reachable] at reached
  induction reached with
  | refl => exact (mem_reachable h start start).mpr .refl
  | @tail caller callee before called ih =>
    have here : inside caller :=
      agree.inside_of_reachable within ((mem_reachable g start caller).mpr before)
    exact mem_reachable_of_callee ih ((agree.same caller here).mem_iff.mp called)

theorem reachable_perm (agree : AgreeOn inside g h) {start : MethodId} (within : inside start) :
    (g.reachable start).Perm (h.reachable start) := by
  apply (List.perm_ext_iff_of_nodup (nodup_reachable g start) (nodup_reachable h start)).mpr
  intro m
  constructor
  · intro reached
    exact agree.reachable_subset within reached
  · intro reached
    exact agree.symm.reachable_subset within reached

theorem subgraph_relisted (agree : AgreeOn inside g h) {start : MethodId} (within : inside start) :
    (g.subgraph start).rows.Relisted (h.subgraph start).rows := by
  have keys : (g.subgraph start).rows.keys.Perm (h.subgraph start).rows.keys := by
    apply (List.perm_ext_iff_of_nodup (nodup_methods_subgraph g start)
      (nodup_methods_subgraph h start)).mpr
    intro m
    rw [mem_methods_subgraph, mem_methods_subgraph, (agree.reachable_perm within).mem_iff]
    apply and_congr_right
    intro reached
    have here := agree.symm.inside_of_reachable within reached
    rw [callees_ne_nil, callees_ne_nil]
    simp only [(agree.same m here).mem_iff]
  apply Table.relisted_of_rows (nodup_methods_subgraph g start) keys
  intro row member
  obtain ⟨reached, items, filled⟩ := (mem_rows_subgraph g start row).mp member
  have perm := agree.same row.1 (agree.inside_of_reachable within reached)
  rw [items] at filled ⊢
  refine ⟨h.callees row.1, ?_, perm⟩
  apply Table.get?_of_mem (nodup_methods_subgraph h start)
  refine (mem_rows_subgraph h start _).mpr ⟨agree.reachable_subset within reached, rfl, ?_⟩
  intro (none : h.callees row.1 = [])
  rw [none] at perm
  exact filled perm.eq_nil

theorem nextCallees_eq (agree : AgreeOn inside g h) {m : MethodId} (within : inside m)
    (prefixes : List String) (visited : List MethodId) :
    g.nextCallees prefixes visited m = h.nextCallees prefixes visited m :=
  Text.sortTexts_perm ((agree.same m within).filter _)

theorem walkFrom_eq (agree : AgreeOn inside g h) (prefixes : List String) (visited : List MethodId)
    {stack : List MethodId} (within : ∀ m ∈ stack, inside m) :
    g.walkFrom prefixes visited stack = h.walkFrom prefixes visited stack := by
  fun_induction walkFrom g prefixes visited stack with
  | case1 visited => rw [walkFrom]
  | case2 visited m stack seen ih =>
    rw [List.forall_mem_cons] at within
    rw [walkFrom_of_seen h prefixes seen, ih within.2]
  | case3 visited m stack fresh visited' ih =>
    rw [List.forall_mem_cons] at within
    have later : ∀ x ∈ g.nextCallees prefixes visited' m ++ stack, inside x := by
      intro x member
      rcases List.mem_append.mp member with called | waiting
      · have listed := List.mem_of_mem_filter (Text.mem_sortTexts.mp called)
        exact agree.closed m within.1 x listed
      · exact within.2 x waiting
    rw [ih later, agree.nextCallees_eq within.1]
    conv_rhs => rw [walkFrom, if_neg fresh]

end AgreeOn

/-- A copy of the subgraph of an entry, with its sets listed in any order, has the callees, the
reachable methods, the subgraphs and the walks of the whole graph for every method that the entry
reaches. So the subgraph of a subgraph is that subgraph. -/
theorem subgraph_selfSufficient (proper : g.Proper) (entry : MethodId)
    (copied : (ofRows (g.subgraph entry).rows).rows.Relisted h.rows) :
    (∀ m ∈ g.reachable entry, (h.callees m).Perm (g.callees m) ∧
      (h.reachable m).Perm (g.reachable m) ∧ (h.subgraph m).rows.Relisted (g.subgraph m).rows ∧
      ∀ prefixes, h.walk prefixes m = g.walk prefixes m) ∧
    (h.subgraph entry).rows.Relisted (g.subgraph entry).rows := by
  rw [ofRows_of_proper (proper.subgraph entry)] at copied
  have agree : AgreeOn (· ∈ g.reachable entry) g h := by
    constructor
    · intro m reached callee called
      exact mem_reachable_of_callee reached called
    · intro m reached
      rw [← callees_subgraph reached]
      exact callees_perm copied m
  refine ⟨?_, agree.symm.subgraph_relisted ((mem_reachable g entry entry).mpr .refl)⟩
  intro m reached
  refine ⟨(agree.same m reached).symm, (agree.reachable_perm reached).symm,
    agree.symm.subgraph_relisted reached, ?_⟩
  intro prefixes
  exact (agree.walkFrom_eq prefixes [] (by simpa using reached)).symm

def ringCopy : CallGraph := ⟨[("a.B.g", ["a.E.k", "a.A.f"]), ("a.A.f", ["a.C.h", "a.B.g"])]⟩

theorem ringCopy_relisted :
    (ofRows (ringGraph.subgraph "a.A.f").rows).rows.Relisted ringCopy.rows := by
  have rows :
      (ringGraph.subgraph "a.A.f").rows =
      [("a.A.f", ["a.B.g", "a.C.h"]), ("a.B.g", ["a.A.f", "a.E.k"])] := by
    simp [subgraph, reachable, reachFrom, callees, ringGraph_rows, Table.get?]
  have keys := (ringGraph_proper.subgraph "a.A.f").keys
  rw [ofRows_of_proper (ringGraph_proper.subgraph "a.A.f")]
  rw [rows] at keys ⊢
  apply Table.relisted_of_rows keys
  · exact List.Perm.swap "a.B.g" "a.A.f" []
  · simp only [List.forall_mem_cons, List.not_mem_nil, false_imp_iff, implies_true, and_true]
    refine ⟨?_, ?_⟩
    · exact ⟨_, rfl, List.Perm.swap "a.C.h" "a.B.g" []⟩
    · exact ⟨_, rfl, List.Perm.swap "a.E.k" "a.A.f" []⟩

theorem subgraph_selfSufficient_ring : ringGraph.Proper ∧
    (ofRows (ringGraph.subgraph "a.A.f").rows).rows.Relisted ringCopy.rows ∧
    "a.B.g" ∈ ringGraph.reachable "a.A.f" ∧
    (ringCopy.reachable "a.B.g").Perm (ringGraph.reachable "a.B.g") ∧
    ringCopy.walk ["a.C."] "a.B.g" = ringGraph.walk ["a.C."] "a.B.g" := by
  have reached : "a.B.g" ∈ ringGraph.reachable "a.A.f" := by
    simp [reachable, reachFrom, callees, ringGraph_rows, Table.get?]
  obtain ⟨_, same, _, walks⟩ :=
    (subgraph_selfSufficient ringGraph_proper "a.A.f" ringCopy_relisted).1 _ reached
  exact ⟨ringGraph_proper, ringCopy_relisted, reached, same, walks ["a.C."]⟩

end CallGraph

end CallAtlas
