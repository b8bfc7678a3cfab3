import CallAtlas.Graph.Basic

/-!
What a method reaches by calls: breadth first as a set, and depth first as a list without code that
is left out. Both searches end because each step empties the work list a little or visits another
caller.
-/

namespace CallAtlas.CallGraph

def unvisited (g : CallGraph) (visited : List MethodId) : Nat :=
  g.methods.countP fun method => method ∉ visited

theorem countP_notMem_append_le (xs visited : List MethodId) (m : MethodId) :
    xs.countP (fun x => x ∉ visited ++ [m]) ≤ xs.countP (fun x => x ∉ visited) := by
  apply List.countP_mono_left
  intro x _ fresh
  simp only [List.mem_append, not_or, decide_eq_true_eq] at fresh ⊢
  exact fresh.1

theorem countP_notMem_append_lt {xs visited : List MethodId} {m : MethodId} (present : m ∈ xs)
    (fresh : m ∉ visited) :
    xs.countP (fun x => x ∉ visited ++ [m]) < xs.countP (fun x => x ∉ visited) := by
  induction xs with
  | nil => cases present
  | cons x xs ih =>
    have le := countP_notMem_append_le xs visited m
    by_cases here : x = m
    · subst here
      have old : decide (x ∉ visited) = true := by simp [fresh]
      have new : decide (x ∉ visited ++ [x]) = false := by simp
      simp only [List.countP_cons, old, new]
      simp only [↓reduceIte, Bool.false_eq_true]
      omega
    · have lt := ih (by simpa [Ne.symm here] using present)
      have same : decide (x ∉ visited ++ [m]) = decide (x ∉ visited) := by simp [here]
      simp only [List.countP_cons, same]
      omega

theorem get?_eq_none_of_notMem {rows : Table MethodId (List MethodId)} {m : MethodId}
    (absent : m ∉ rows.keys) :
    rows.get? m = none := by
  induction rows with
  | nil => rfl
  | cons row rows ih =>
    simp only [Table.keys, List.map_cons, List.mem_cons, not_or] at absent
    simp only [Table.get?, Ne.symm absent.1, ↓reduceIte]
    exact ih absent.2

theorem callees_eq_nil_of_notMem {g : CallGraph} {m : MethodId} (absent : m ∉ g.methods) :
    g.callees m = [] := by
  simp [callees, get?_eq_none_of_notMem absent]

theorem visit_decreases (g : CallGraph) {visited : List MethodId} {m : MethodId}
    (fresh : m ∉ visited) :
    g.unvisited (visited ++ [m]) < g.unvisited visited ∨
      (g.unvisited (visited ++ [m]) ≤ g.unvisited visited ∧ g.callees m = []) := by
  by_cases present : m ∈ g.methods
  · exact .inl (countP_notMem_append_lt present fresh)
  · exact .inr ⟨countP_notMem_append_le _ _ _, callees_eq_nil_of_notMem present⟩

/-- Visits what is in `queue` and what that reaches, in the order of discovery. -/
def reachFrom (g : CallGraph) (visited : List MethodId) : (queue : List MethodId) → List MethodId
  | [] => visited
  | m :: queue =>
    if m ∈ visited then reachFrom g visited queue
    else
      let visited' := visited ++ [m]
      reachFrom g visited' (queue ++ (g.callees m).filter (· ∉ visited'))
termination_by queue => (g.unvisited visited, queue.length)
decreasing_by
  · exact Prod.Lex.right _ (by simp)
  · rename_i fresh
    rcases visit_decreases g fresh with lt | ⟨le, none⟩
    · exact Prod.Lex.left _ _ lt
    · rcases Nat.lt_or_eq_of_le le with lt | eq
      · exact Prod.Lex.left _ _ lt
      · simp only [eq, none]
        exact Prod.Lex.right _ (by simp)

def reachable (g : CallGraph) (entry : MethodId) : List MethodId := g.reachFrom [] [entry]

/-- The rows of the methods that `entry` reaches; methods without callees have none. -/
def subgraph (g : CallGraph) (entry : MethodId) : CallGraph :=
  ⟨((g.reachable entry).map fun m => (m, g.callees m)).filter fun row => !row.2.isEmpty⟩

def nextCallees (g : CallGraph) (prefixes : List String) (visited : List MethodId) (m : MethodId) :
    List MethodId :=
  Text.sortTexts
    ((g.callees m).filter fun callee => callee ∉ visited && !MethodId.isExcluded prefixes callee)

def walkFrom (g : CallGraph) (prefixes : List String) (visited : List MethodId) :
    (stack : List MethodId) → List MethodId
  | [] => visited
  | m :: stack =>
    if m ∈ visited then walkFrom g prefixes visited stack
    else
      let visited' := visited ++ [m]
      walkFrom g prefixes visited' (g.nextCallees prefixes visited' m ++ stack)
termination_by stack => (g.unvisited visited, stack.length)
decreasing_by
  · exact Prod.Lex.right _ (by simp)
  · rename_i fresh
    rcases visit_decreases g fresh with lt | ⟨le, none⟩
    · exact Prod.Lex.left _ _ lt
    · rcases Nat.lt_or_eq_of_le le with lt | eq
      · exact Prod.Lex.left _ _ lt
      · simp only [eq, nextCallees, none]
        exact Prod.Lex.right _ (by simp [Text.sortTexts])

/-- Each method below `entry` once, callers before callees and callees in ascending order; methods
that are left out are not followed. -/
def walk (g : CallGraph) (prefixes : List String) (entry : MethodId) : List MethodId :=
  g.walkFrom prefixes [] [entry]

end CallAtlas.CallGraph
