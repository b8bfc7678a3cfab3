import CallAtlas.Endpoint
import CallAtlas.Proofs.Tables

/-!
What a registry holds after a scan: the endpoints that no later one replaced under their key, and
the types with a controller annotation.
-/

namespace CallAtlas

open ClassFile

def endpointOf (type : CompiledType) (method : CompiledMethod) : Option Endpoint :=
  (if type.annotations.any isControllerUse then Mapping.ofUses method.annotations
    else none).map fun mapping =>
    ⟨mapping.verb, mapping.path, MethodId.ofOwner type.name method.name⟩

def declaredEndpoints (type : CompiledType) : List Endpoint :=
  type.methods.filterMap (endpointOf type)

def Survives (registered : List Endpoint) (endpoint : Endpoint) : Prop :=
  ∃ before after, registered = before ++ endpoint :: after ∧
    ∀ later ∈ after, later.key ≠ endpoint.key

theorem survives_cons (first : Endpoint) (rest : List Endpoint) (endpoint : Endpoint) :
    Survives (first :: rest) endpoint ↔
      (first = endpoint ∧ ∀ later ∈ rest, later.key ≠ endpoint.key) ∨ Survives rest endpoint := by
  constructor
  · intro survives
    obtain ⟨before, after, split, last⟩ := survives
    cases before with
    | nil =>
      cases split
      exact .inl ⟨rfl, last⟩
    | cons head before =>
      cases split
      exact .inr ⟨before, after, rfl, last⟩
  · intro cases
    rcases cases with ⟨rfl, last⟩ | ⟨before, after, split, last⟩
    · exact ⟨[], rest, rfl, last⟩
    · exact ⟨first :: before, after, by rw [split, List.cons_append], last⟩

namespace EndpointRegistry

def enter (r : EndpointRegistry) (endpoints : List Endpoint) : EndpointRegistry :=
  endpoints.foldl (fun r endpoint => (r.register endpoint).1) r

theorem enter_append (r : EndpointRegistry) (first second : List Endpoint) :
    r.enter (first ++ second) = (r.enter first).enter second := List.foldl_append

theorem controllers_enter (endpoints : List Endpoint) (r : EndpointRegistry) :
    (r.enter endpoints).controllers = r.controllers := by
  induction endpoints generalizing r with
  | nil => rfl
  | cons endpoint rest ih => exact ih _

theorem table_enter {r r' : EndpointRegistry} (same : r.table = r'.table)
    (endpoints : List Endpoint) :
    (r.enter endpoints).table = (r'.enter endpoints).table := by
  induction endpoints generalizing r r' with
  | nil => exact same
  | cons endpoint rest ih =>
    apply ih
    simp only [register, same]

theorem keyed_enter {r : EndpointRegistry} (keyed : r.table.KeyedBy Endpoint.key)
    (endpoints : List Endpoint) :
    (r.enter endpoints).table.KeyedBy Endpoint.key := by
  induction endpoints generalizing r with
  | nil => exact keyed
  | cons endpoint rest ih => exact ih (keyed.put rfl)

theorem get?_enter (endpoints : List Endpoint) (r : EndpointRegistry) (key : Text.CodeText)
    (endpoint : Endpoint) :
    (r.enter endpoints).table.get? key = some endpoint ↔
      (Survives endpoints endpoint ∧ endpoint.key = key) ∨
        (r.table.get? key = some endpoint ∧ ∀ later ∈ endpoints, later.key ≠ key) := by
  induction endpoints generalizing r with
  | nil => simp [enter, Survives]
  | cons first rest ih =>
    have step :
        (r.enter (first :: rest)) = ({ r with table := r.table.put first.key first }).enter rest :=
          rfl
    rw [step, ih, survives_cons, List.forall_mem_cons]
    simp only [Table.get?_put]
    constructor
    · intro holds
      rcases holds with ⟨survives, named⟩ | ⟨found, last⟩
      · exact .inl ⟨.inr survives, named⟩
      · split at found
        · rename_i same
          cases found
          exact .inl ⟨.inl ⟨rfl, same ▸ last⟩, same⟩
        · rename_i apart
          exact .inr ⟨found, apart, last⟩
    · intro holds
      rcases holds with ⟨⟨rfl, last⟩ | survives, rfl⟩ | ⟨found, apart, last⟩
      · rw [if_pos rfl]
        exact .inr ⟨rfl, last⟩
      · exact .inl ⟨survives, rfl⟩
      · rw [if_neg apart]
        exact .inr ⟨found, last⟩

theorem visitMethodOf_eq (r : EndpointRegistry) (type : CompiledType) (method : CompiledMethod) :
    (r.visitMethodOf type.name (type.annotations.any isControllerUse) method).1 =
    endpointOf type method ∧
    (r.visitMethodOf type.name (type.annotations.any isControllerUse) method).2.1 =
        r.enter (endpointOf type method).toList := by
  unfold visitMethodOf endpointOf
  split
  · rename_i unmapped
    rw [unmapped]
    exact ⟨rfl, rfl⟩
  · rename_i mapping mapped
    rw [mapped]
    exact ⟨rfl, rfl⟩

theorem foldl_visits {type : CompiledType}
    {step : List Endpoint × EndpointRegistry × Log → CompiledMethod →
      List Endpoint × EndpointRegistry × Log}
    (finds : ∀ state method, (step state method).1 = state.1 ++ (endpointOf type method).toList)
    (enters : ∀ state method, (step state method).2.1 =
      state.2.1.enter (endpointOf type method).toList)
    (methods : List CompiledMethod) (state : List Endpoint × EndpointRegistry × Log) :
    (methods.foldl step state).1 = state.1 ++ methods.filterMap (endpointOf type) ∧
      (methods.foldl step state).2.1 = state.2.1.enter (methods.filterMap (endpointOf type)) := by
  induction methods generalizing state with
  | nil => exact ⟨(List.append_nil _).symm, rfl⟩
  | cons method rest ih =>
    have own : (method :: rest).filterMap (endpointOf type) =
        (endpointOf type method).toList ++ rest.filterMap (endpointOf type) := by
      cases stands : endpointOf type method <;> simp [stands]
    obtain ⟨found, entered⟩ := ih (step state method)
    rw [List.foldl_cons, found, entered, finds, enters, own, enter_append, List.append_assoc]
    exact ⟨rfl, rfl⟩

/-- What a type adds does not depend on what was entered before. -/
theorem scanType_eq (r : EndpointRegistry) (type : CompiledType) :
    (r.scanType type).1 = declaredEndpoints type ∧
      (r.scanType type).2.1 = (r.visitType type).enter (declaredEndpoints type) := by
  unfold scanType
  apply foldl_visits
  · intro state method
    rw [← (visitMethodOf_eq state.2.1 type method).1]
  · intro state method
    rw [← (visitMethodOf_eq state.2.1 type method).2]

theorem scan_eq (r : EndpointRegistry) (types : List CompiledType) :
    (r.scan types).1 =
    types.foldl (fun r type => (r.visitType type).enter (declaredEndpoints type)) r := by
  unfold scan
  generalize ([] : Log) = log
  induction types generalizing r log with
  | nil => rfl
  | cons type rest ih =>
    rw [List.foldl_cons, List.foldl_cons, ih, (scanType_eq r type).2]

theorem table_scan (r : EndpointRegistry) (types : List CompiledType) :
    (r.scan types).1.table = (r.enter (types.flatMap declaredEndpoints)).table := by
  rw [scan_eq]
  induction types generalizing r with
  | nil => rfl
  | cons type rest ih =>
    rw [List.foldl_cons, ih, List.flatMap_cons, enter_append]
    apply table_enter
    apply table_enter
    rfl

theorem mem_endpoints_scan (types : List CompiledType) (endpoint : Endpoint) :
    endpoint ∈ (({} : EndpointRegistry).scan types).1.endpoints ↔
    Survives (types.flatMap declaredEndpoints) endpoint := by
  have keyed :
      (({} : EndpointRegistry).enter (types.flatMap declaredEndpoints)).table.KeyedBy
        Endpoint.key :=
    keyed_enter .empty _
  rw [endpoints, table_scan, keyed.mem_values_iff, get?_enter]
  simp [Table.get?]

theorem mem_controllers_scan (types : List CompiledType) (r : EndpointRegistry) (name : String) :
    name ∈ (r.scan types).1.controllers ↔
      name ∈ r.controllers ∨ ∃ type ∈ types, type.annotations.any isControllerUse ∧
      type.name = name := by
  rw [scan_eq]
  induction types generalizing r with
  | nil => simp
  | cons type rest ih =>
    rw [List.foldl_cons, ih, controllers_enter]
    simp only [List.mem_cons, exists_eq_or_imp, visitType]
    cases type.annotations.any isControllerUse with
    | true =>
      rw [if_pos rfl, mem_insertNew, or_assoc, or_left_comm, eq_comm]
      simp only [true_and]
    | false => simp only [Bool.false_eq_true, if_false, false_and, false_or]

end EndpointRegistry

end CallAtlas
