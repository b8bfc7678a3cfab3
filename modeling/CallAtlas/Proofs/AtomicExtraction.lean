import CallAtlas.Proofs.CallEdges

/-!
The calls of a type enter the graph all or not at all. They touch the rows of the type's own methods
only, and entering them again changes nothing.
-/

namespace CallAtlas

open ClassFile Bytecode

theorem Table.modify_of_get? {κ ν : Type} [DecidableEq κ] {table : Table κ ν} {key : κ}
    {value start : ν} {change : ν → ν} (there : table.get? key = some value)
    (same : change value = value) : table.modify key start change = table := by
  induction table with
  | nil => cases there
  | cons entry rest ih =>
    obtain ⟨first, old⟩ := entry
    rw [get?] at there
    rw [modify]
    split
    · rename_i here
      rw [if_pos here] at there
      rw [Option.some.inj there, same]
    · rename_i apart
      rw [if_neg apart] at there
      rw [ih there]

namespace CallGraph

variable {g : CallGraph} {caller callee : MethodId}

theorem addEdge_of_mem (called : callee ∈ g.callees caller) : g.addEdge caller callee = g := by
  rw [callees] at called
  cases row : g.rows.get? caller with
  | none =>
    rw [row] at called
    cases called
  | some callees =>
    rw [row] at called
    exact congrArg CallGraph.mk (Table.modify_of_get? row (if_pos called))

theorem addEdges_of_mem {edges : List (MethodId × MethodId)}
    (called : ∀ edge ∈ edges, edge.2 ∈ g.callees edge.1) :
    g.addEdges edges = g := by
  unfold addEdges
  induction edges with
  | nil => rfl
  | cons edge edges ih =>
    rw [List.forall_mem_cons] at called
    rw [List.foldl_cons, addEdge_of_mem called.1]
    exact ih called.2

theorem get?_addEdge (source target id : MethodId) :
    (g.addEdge source target).rows.get? id =
      if source = id then some (insertNew target (g.callees source)) else g.rows.get? id :=
  Table.get?_modify id source [] (insertNew target) g.rows

theorem mem_callees_addEdge (source target : MethodId) :
    callee ∈ (g.addEdge source target).callees caller ↔
      callee ∈ g.callees caller ∨ caller = source ∧ callee = target := by
  rw [callees, get?_addEdge]
  by_cases here : source = caller
  · subst here
    simp [or_comm]
  · have apart : caller ≠ source := Ne.symm here
    simp [here, apart, callees]

theorem mem_callees_addEdges (edges : List (MethodId × MethodId)) :
    callee ∈ (g.addEdges edges).callees caller ↔ callee ∈ g.callees caller ∨
    (caller, callee) ∈ edges := by
  unfold addEdges
  induction edges generalizing g with
  | nil => simp
  | cons edge edges ih =>
    obtain ⟨source, target⟩ := edge
    rw [List.foldl_cons, ih, mem_callees_addEdge, List.mem_cons, or_assoc, Prod.mk.injEq]

theorem get?_addEdges_of_ne {edges : List (MethodId × MethodId)} {id : MethodId}
    (others : ∀ edge ∈ edges, edge.1 ≠ id) :
    (g.addEdges edges).rows.get? id = g.rows.get? id := by
  unfold addEdges
  induction edges generalizing g with
  | nil => rfl
  | cons edge edges ih =>
    rw [List.forall_mem_cons] at others
    rw [List.foldl_cons, ih others.2, get?_addEdge, if_neg others.1]

theorem addCalls_again (g : CallGraph) (prefixes : List String) (calls : List Call) :
    (g.addCalls prefixes calls).addCalls prefixes calls = g.addCalls prefixes calls := by
  apply addEdges_of_mem
  intro edge member
  exact (mem_callees_addEdges _).mpr (.inr member)

theorem get?_addCalls_of_ne {prefixes : List String} {calls : List Call} {id : MethodId}
    (others : ∀ call ∈ calls, call.caller ≠ id) : (g.addCalls prefixes calls).rows.get? id =
    g.rows.get? id := by
  apply get?_addEdges_of_ne
  intro edge member
  obtain ⟨call, kept, rfl⟩ := List.mem_map.mp member
  exact others call (List.mem_of_mem_filter kept)

end CallGraph

def methodInstructions (type : CompiledType) (method : CompiledMethod) : List Instruction :=
  match method.code with
  | none => []
  | some code => (trace type.pool code).instructions

def invocationCount (type : CompiledType) : Nat :=
  (type.methods.flatMap (methodInstructions type)).countP fun instruction =>
    instruction.mnemonic ∈ invokeMnemonics

theorem length_methodCalls {type : CompiledType} {method : CompiledMethod} {calls : List Call}
    (done : methodCalls type method = .ok calls) :
    calls.length = (methodInstructions type method).countP fun instruction =>
      instruction.mnemonic ∈ invokeMnemonics := by
  unfold methodCalls at done
  split at done
  · rename_i absent
    cases done
    simp only [methodInstructions, absent]
    rfl
  · rename_i code present
    obtain ⟨instructions, decoded, finish⟩ := bind_eq_ok.mp done
    cases finish
    simp only [methodInstructions, present, ← decode_eq_ok decoded]
    rw [List.length_map, List.length_filterMap_eq_countP]
    apply List.countP_congr
    intro instruction member
    rw [decide_eq_true_iff, mem_decode_invoked_iff decoded member, Option.isSome_iff_exists]
    exact exists_congr fun _ => invoked?_eq_some

theorem length_typeCalls {type : CompiledType} {calls : List Call}
    (done : typeCalls type = .ok calls) :
    calls.length = invocationCount type := by
  obtain ⟨parts, each, finish⟩ := bind_eq_ok.mp done
  cases finish
  have pairs := mapM_eq_ok.mp each
  unfold invocationCount
  clear done each
  generalize type.methods = methods at pairs
  induction pairs with
  | nil => rfl
  | cons first _ ih =>
    rw [List.flatten_cons, List.length_append, length_methodCalls first, ih, List.flatMap_cons,
      List.countP_append]

/-- The first method of a type that cannot be decoded fails with `e`. -/
def BreaksWith (type : CompiledType) (e : DecodeError) : Prop :=
  ∃ front method back code, type.methods = front ++ method :: back ∧ method.code = some code ∧
    decode type.pool code = .error e ∧
      ∀ earlier ∈ front, ∀ code, earlier.code = some code →
        ∃ instructions, decode type.pool code = .ok instructions

theorem methodCalls_eq_error {type : CompiledType} {method : CompiledMethod} {e : DecodeError}
    (failed : methodCalls type method = .error e) :
    ∃ code, method.code = some code ∧ decode type.pool code = .error e := by
  unfold methodCalls at failed
  split at failed
  · cases failed
  · rename_i code present
    exact ⟨code, present, bind_pure_eq_error.mp failed⟩

theorem exists_first_error {ε α β : Type} {f : α → Except ε β} {xs : List α} {e : ε}
    (failed : xs.mapM f = .error e) :
    ∃ front x back, xs = front ++ x :: back ∧ f x = .error e ∧ ∀ y ∈ front, ∃ z, f y = .ok z := by
  induction xs with
  | nil => cases failed
  | cons x xs ih =>
    rcases mapM_cons_eq_error.mp failed with here | ⟨first, later⟩
    · exact ⟨[], x, xs, rfl, here, by simp⟩
    · obtain ⟨front, y, back, rfl, reason, earlier⟩ := ih later
      refine ⟨x :: front, y, back, rfl, reason, ?_⟩
      rw [List.forall_mem_cons]
      exact ⟨first, earlier⟩

theorem typeCalls_breaksWith {type : CompiledType} {e : DecodeError}
    (failed : typeCalls type = .error e) :
    BreaksWith type e := by
  obtain ⟨front, method, back, split, reason, earlier⟩ :=
    exists_first_error (bind_pure_eq_error.mp failed)
  obtain ⟨code, present, broken⟩ := methodCalls_eq_error reason
  refine ⟨front, method, back, code, split, present, broken, ?_⟩
  intro m member
  obtain ⟨calls, done⟩ := earlier m member
  exact decodes_method done

theorem Run.Extraction.addTypes_singleton (found : Run.Extraction) (prefixes : List String)
    (type : CompiledType) : found.addTypes prefixes [type] = found.addType prefixes type := by
  rw [addTypes]
  rcases found.addType prefixes type with ⟨_, _ | _⟩ <;> rfl

/-- If a method of a type cannot be decoded, its extraction fails as the first such method does, and
the graph is left as it was. Otherwise all calls are counted and those that are not left out are
added; no row but those of the type's methods changes, and a second extraction counts the same and
changes nothing. -/
theorem extraction_allOrNothing (g : CallGraph) (prefixes : List String) (type : CompiledType) :
    (∃ e, (GraphRun.addType prefixes type).outcome g = (.error e, g) ∧ BreaksWith type e ∧
      ∀ found : Run.Extraction, found.graph = g → (found.addTypes prefixes [type]).1.graph = g) ∨
    ∃ added after, (GraphRun.addType prefixes type).outcome g = (.ok added, after) ∧ Decodes type ∧
      (∀ found : Run.Extraction, found.graph = g →
        (found.addTypes prefixes [type]).1.graph = after) ∧
      added.count = invocationCount type ∧
      (∀ caller callee, (caller, callee) ∈ after.edges ↔
        (caller, callee) ∈ g.edges ∨ DirectCall [type] prefixes caller callee) ∧
      (∀ id, (∀ method ∈ type.methods, id ≠ MethodId.ofOwner type.name method.name) →
        after.rows.get? id = g.rows.get? id ∧ after.callees id = g.callees id) ∧
      ∃ again, (GraphRun.addType prefixes type).outcome after = (.ok again, after) ∧
        again.count = added.count := by
  have keeps {result : Except DecodeError AddedCalls} {after : CallGraph}
      (run : (GraphRun.addType prefixes type).outcome g = (result, after)) (found : Run.Extraction)
      (same : found.graph = g) : (found.addTypes prefixes [type]).1.graph = after := by
    rw [found.addTypes_singleton, found.graph_addType, same, run]
  cases outcome : typeCalls type with
  | error e =>
    have failed : (GraphRun.addType prefixes type).outcome g = (.error e, g) := by
      rw [GraphRun.addType_outcome, outcome]
    exact .inl ⟨e, failed, typeCalls_breaksWith outcome, keeps failed⟩
  | ok calls =>
    obtain ⟨decodes, invokes⟩ := typeCalls_ok outcome
    have run (g : CallGraph) : ∃ log, (GraphRun.addType prefixes type).outcome g =
        (.ok ⟨calls.length, log⟩, g.addCalls prefixes calls) := by
      rw [GraphRun.addType_outcome, outcome]
      exact ⟨_, rfl⟩
    obtain ⟨log, first⟩ := run g
    obtain ⟨log', second⟩ := run (g.addCalls prefixes calls)
    rw [CallGraph.addCalls_again] at second
    refine .inr ⟨_, _, first, decodes, keeps first, length_typeCalls outcome, ?_, ?_,
      _, second, rfl⟩
    · intro caller callee
      rw [CallGraph.mem_edges_addCalls, isExcluded_eq_false, invokes]
      simp [DirectCall, decodes]
    · intro id foreign
      have row : (g.addCalls prefixes calls).rows.get? id = g.rows.get? id := by
        apply CallGraph.get?_addCalls_of_ne
        intro call member same
        obtain ⟨method, declared, caller, _⟩ := (invokes call).mp member
        exact foreign method declared (same ▸ caller)
      exact ⟨row, by rw [CallGraph.callees, CallGraph.callees, row]⟩

end CallAtlas
