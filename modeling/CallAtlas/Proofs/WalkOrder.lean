import CallAtlas.Graph.Reach
import CallAtlas.Proofs.Sorting

/-!
The order in which a walk visits methods: that of the recursive walk, which looks at a callee when
it comes to it and not when it sees it first.
-/

namespace CallAtlas.CallGraph

def followed (g : CallGraph) (prefixes : List String) (m : MethodId) : List MethodId :=
  Text.sortTexts ((g.callees m).filter fun callee => !MethodId.isExcluded prefixes callee)

theorem followed_ascends (g : CallGraph) (prefixes : List String) (m : MethodId) :
    (g.followed prefixes m).Pairwise (· ≤ ·) := Text.pairwise_sortTexts _

theorem unvisited_antitone (g : CallGraph) {visited after : List MethodId}
    (kept : visited <+: after) :
    g.unvisited after ≤ g.unvisited visited := by
  apply List.countP_mono_left
  intro m _ fresh
  rw [decide_eq_true_eq] at fresh ⊢
  exact fun seen => fresh (kept.subset seen)

mutual

/-- Visits a method unless it is among `visited`, and then what it calls, in ascending order
(`followed_ascends`). -/
def visit (g : CallGraph) (prefixes : List String) (visited : List MethodId) (m : MethodId) :
    { after : List MethodId // visited <+: after } :=
  if m ∈ visited then ⟨visited, List.prefix_rfl⟩
  else
    let below := visitAll g prefixes (visited ++ [m]) (g.followed prefixes m)
    ⟨below, (List.prefix_append visited [m]).trans below.2⟩
termination_by (g.unvisited visited, 1)
decreasing_by
  rename_i fresh
  rcases visit_decreases g fresh with lt | ⟨le, none⟩
  · exact Prod.Lex.left _ _ lt
  · rcases Nat.lt_or_eq_of_le le with lt | eq
    · exact Prod.Lex.left _ _ lt
    · rw [eq]
      exact Prod.Lex.right _ (by simp [followed, none, Text.sortTexts])

def visitAll (g : CallGraph) (prefixes : List String) (visited : List MethodId) :
    (methods : List MethodId) → { after : List MethodId // visited <+: after }
  | [] => ⟨visited, List.prefix_rfl⟩
  | m :: rest =>
    let first := visit g prefixes visited m
    let others := visitAll g prefixes first rest
    ⟨others, first.2.trans others.2⟩
termination_by methods => (g.unvisited visited, 2 * methods.length)
decreasing_by
  · exact Prod.Lex.right _ (by simp; omega)
  · rcases Nat.lt_or_eq_of_le (unvisited_antitone g first.2) with lt | eq
    · exact Prod.Lex.left _ _ lt
    · rw [eq]
      exact Prod.Lex.right _ (by simp)

end

variable (g : CallGraph) (prefixes : List String)

theorem visit_of_seen {visited : List MethodId} {m : MethodId} (seen : m ∈ visited) :
    (g.visit prefixes visited m).1 = visited := by
  rw [visit, if_pos seen]

theorem visit_of_fresh {visited : List MethodId} {m : MethodId} (fresh : m ∉ visited) :
    (g.visit prefixes visited m).1 =
    (g.visitAll prefixes (visited ++ [m]) (g.followed prefixes m)).1 := by
  rw [visit, if_neg fresh]

theorem visitAll_cons (visited : List MethodId) (m : MethodId) (rest : List MethodId) :
    (g.visitAll prefixes visited (m :: rest)).1 =
      (g.visitAll prefixes (g.visit prefixes visited m).1 rest).1 := by
  rw [visitAll]

theorem nextCallees_eq (visited : List MethodId) (m : MethodId) :
    g.nextCallees prefixes visited m = (g.followed prefixes m).filter (· ∉ visited) := by
  rw [followed, Text.filter_sortTexts, List.filter_filter, nextCallees]

theorem walkFrom_of_seen {visited : List MethodId} {m : MethodId} (seen : m ∈ visited)
    (stack : List MethodId) :
    g.walkFrom prefixes visited (m :: stack) = g.walkFrom prefixes visited stack := by
  rw [walkFrom, if_pos seen]

theorem walkFrom_of_fresh {visited : List MethodId} {m : MethodId} (fresh : m ∉ visited)
    (stack : List MethodId) :
    g.walkFrom prefixes visited (m :: stack) = g.walkFrom prefixes (visited ++ [m])
      ((g.followed prefixes m).filter (· ∉ visited ++ [m]) ++ stack) := by
  rw [← nextCallees_eq, walkFrom, if_neg fresh]

theorem walkFrom_filter {old visited : List MethodId} (seen : old ⊆ visited)
    (stack : List MethodId) :
    g.walkFrom prefixes visited (stack.filter (· ∉ old)) = g.walkFrom prefixes visited stack := by
  fun_induction walkFrom g prefixes visited stack with
  | case1 visited => rw [List.filter_nil, walkFrom]
  | case2 visited m stack present ih =>
    rw [List.filter_cons]
    split
    · rw [walkFrom_of_seen g prefixes present, ih seen]
    · exact ih seen
  | case3 visited m stack fresh visited' ih =>
    have later : old ⊆ visited' := List.subset_append_of_subset_left [m] seen
    have stays : m ∉ old := fun member => fresh (seen member)
    have next : (g.nextCallees prefixes visited' m).filter (· ∉ old) =
        g.nextCallees prefixes visited' m := by
      rw [nextCallees_eq, List.filter_filter]
      apply List.filter_congr
      intro callee _
      by_cases member : callee ∈ visited'
      · simp [member]
      · simp [member, mt (@later callee) member]
    rw [List.filter_cons_of_pos (by simpa using stays), walkFrom, if_neg fresh, ← ih later,
      List.filter_append, next]

theorem walkFrom_filter_append (visited pending stack : List MethodId) :
    g.walkFrom prefixes visited (pending.filter (· ∉ visited) ++ stack) =
      g.walkFrom prefixes visited (pending ++ stack) := by
  calc
    _ = g.walkFrom prefixes visited
        ((pending.filter (· ∉ visited) ++ stack).filter (· ∉ visited)) :=
      (walkFrom_filter g prefixes (List.Subset.refl visited) _).symm
    _ = g.walkFrom prefixes visited ((pending ++ stack).filter (· ∉ visited)) := by simp
    _ = _ := walkFrom_filter g prefixes (List.Subset.refl visited) _

/-- The stack is what the recursion has still to do: methods on its top are visited first, with all
below them. -/
theorem walkFrom_append (visited pending stack : List MethodId) :
    g.walkFrom prefixes visited (pending ++ stack) =
      g.walkFrom prefixes (g.visitAll prefixes visited pending).1 stack := by
  revert stack
  refine visitAll.induct g prefixes
    (fun visited m => ∀ stack, g.walkFrom prefixes visited (m :: stack) =
      g.walkFrom prefixes (g.visit prefixes visited m).1 stack)
    (fun visited pending => ∀ stack, g.walkFrom prefixes visited (pending ++ stack) =
      g.walkFrom prefixes (g.visitAll prefixes visited pending).1 stack) ?_ ?_ ?_ ?_ visited pending
  · intro visited m seen stack
    rw [walkFrom_of_seen g prefixes seen, visit_of_seen g prefixes seen]
  · intro visited m fresh below stack
    rw [walkFrom_of_fresh g prefixes fresh, walkFrom_filter_append, below,
      visit_of_fresh g prefixes fresh]
  · intro visited stack
    rw [visitAll, List.nil_append]
  · intro visited m rest _ first others _ stack
    rw [List.cons_append, first, visitAll_cons, others]

/-- The walk with a stack visits methods in the order of the recursive walk. -/
theorem walk_eq_visit (entry : MethodId) :
    g.walk prefixes entry = (g.visit prefixes [] entry).1 := by
  calc
    g.walk prefixes entry = g.walkFrom prefixes [] ([entry] ++ []) := rfl
    _ = g.walkFrom prefixes (g.visitAll prefixes [] [entry]).1 [] :=
      walkFrom_append g prefixes [] [entry] []
    _ = (g.visitAll prefixes [] [entry]).1 := by rw [walkFrom]
    _ = (g.visit prefixes [] entry).1 := by rw [visitAll_cons, visitAll]

end CallAtlas.CallGraph
