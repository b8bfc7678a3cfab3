import CallAtlas.Proofs.MappingAnnotations
import CallAtlas.Proofs.SetTables

/-!
What a registry holds after any operations on it, in terms of the types and methods they visit.
-/

namespace CallAtlas.EndpointRegistry

open ClassFile

section Listed

variable {registers : Nat → Endpoint → Prop}

def LastRegistered (registers : Nat → Endpoint → Prop) (endpoint : Endpoint) : Prop :=
  ∃ place, registers place endpoint ∧ ∀ later other, registers later other →
    other.key = endpoint.key → later ≤ place

def RegisteredBefore (registers : Nat → Endpoint → Prop) (key other : Text.CodeText) : Prop :=
  ∃ place endpoint, registers place endpoint ∧ endpoint.key = key ∧
    ∀ later next, registers later next → next.key = other → place < later

/-- A table of registrations: each key stands where it was registered first, with what was
registered last. -/
structure Listed (registers : Nat → Endpoint → Prop)
    (table : Table Text.CodeText Endpoint) : Prop where
  keyed : table.KeyedBy Endpoint.key
  stored : ∀ endpoint, table.get? endpoint.key = some endpoint ↔ LastRegistered registers endpoint
  known : ∀ place endpoint, registers place endpoint → table.get? endpoint.key ≠ none
  ordered : table.keys.Pairwise (RegisteredBefore registers)

namespace Listed

variable {table : Table Text.CodeText Endpoint}

theorem empty (silent : ∀ place endpoint, ¬ registers place endpoint) : Listed registers [] where
  keyed := .empty
  stored _ := iff_of_false nofun fun last => silent _ _ last.choose_spec.1
  known place endpoint here := absurd here (silent place endpoint)
  ordered := List.Pairwise.nil

variable {registers' : Nat → Endpoint → Prop} {last : Nat} {added : Endpoint}

theorem lastRegistered_add (bound : ∀ place endpoint, registers place endpoint → place < last)
    (adds : ∀ place endpoint, registers' place endpoint ↔ registers place endpoint ∨ place = last ∧
      endpoint = added)
    (endpoint : Endpoint) :
    LastRegistered registers' endpoint ↔
      endpoint = added ∨ endpoint.key ≠ added.key ∧ LastRegistered registers endpoint := by
  constructor
  · intro found
    obtain ⟨place, here, latest⟩ := found
    rcases (adds place endpoint).mp here with old | ⟨_, new⟩
    · refine .inr ⟨?_, place, old, ?_⟩
      · intro same
        have after := latest last added ((adds last added).mpr (.inr ⟨rfl, rfl⟩)) same.symm
        have before := bound place endpoint old
        omega
      · intro later other there same
        exact latest later other ((adds later other).mpr (.inl there)) same
    · exact .inl new
  · intro cases
    rcases cases with rfl | ⟨apart, place, here, latest⟩
    · refine ⟨last, (adds last endpoint).mpr (.inr ⟨rfl, rfl⟩), ?_⟩
      intro later other there _
      rcases (adds later other).mp there with old | ⟨rfl, _⟩
      · exact Nat.le_of_lt (bound later other old)
      · exact Nat.le_refl _
    · refine ⟨place, (adds place endpoint).mpr (.inl here), ?_⟩
      intro later other there same
      rcases (adds later other).mp there with old | ⟨_, rfl⟩
      · exact latest later other old same
      · exact absurd same.symm apart

theorem registeredBefore_add (bound : ∀ place endpoint, registers place endpoint → place < last)
    (adds : ∀ place endpoint, registers' place endpoint ↔ registers place endpoint ∨ place = last ∧
      endpoint = added)
    {key other : Text.CodeText} (before : RegisteredBefore registers key other) :
    RegisteredBefore registers' key other := by
  obtain ⟨place, endpoint, here, named, first⟩ := before
  refine ⟨place, endpoint, (adds place endpoint).mpr (.inl here), named, ?_⟩
  intro later next there same
  rcases (adds later next).mp there with old | ⟨rfl, _⟩
  · exact first later next old same
  · exact bound place endpoint here

theorem put (listed : Listed registers table)
    (bound : ∀ place endpoint, registers place endpoint → place < last)
    (adds : ∀ place endpoint, registers' place endpoint ↔ registers place endpoint ∨ place = last ∧
      endpoint = added) :
    Listed registers' (table.put added.key added) where
  keyed := listed.keyed.put rfl
  stored endpoint := by
    rw [Table.get?_put, lastRegistered_add bound adds, ← listed.stored]
    split
    · rename_i same
      simp [same, eq_comm]
    · rename_i apart
      have other : endpoint ≠ added := fun same => apart (congrArg Endpoint.key same.symm)
      simp [other, Ne.symm apart]
  known place endpoint here := by
    rw [Table.get?_put]
    split
    · exact Option.some_ne_none _
    · rename_i apart
      rcases (adds place endpoint).mp here with old | ⟨_, rfl⟩
      · exact listed.known place endpoint old
      · exact absurd rfl apart
  ordered := by
    have kept := listed.ordered.imp (registeredBefore_add bound adds)
    cases there : table.get? added.key with
    | some previous =>
      obtain ⟨before, after, split, changed⟩ := Table.put_present there added
      have same : (table.put added.key added).keys = table.keys := by
        rw [changed, split]
        simp [Table.keys]
      rw [same]
      exact kept
    | none =>
      have more : (table.put added.key added).keys = table.keys ++ [added.key] := by
        rw [Table.put_absent there]
        simp [Table.keys]
      rw [more]
      apply List.pairwise_append.mpr
      refine ⟨kept, List.pairwise_singleton _ _, ?_⟩
      intro key present other new
      rw [List.mem_singleton] at new
      subst new
      -- The key was registered at some place, the new one at none before.
      obtain ⟨entry, member, rfl⟩ := List.mem_map.mp present
      have own := listed.keyed.own entry member
      have stored := Table.get?_of_mem listed.keyed.distinct member
      rw [← own] at stored
      obtain ⟨place, here, _⟩ := (listed.stored entry.2).mp stored
      refine ⟨place, entry.2, (adds _ _).mpr (.inl here), own, ?_⟩
      intro later next found same
      rcases (adds later next).mp found with old | ⟨rfl, _⟩
      · exact absurd (same ▸ there) (listed.known later next old)
      · exact bound place entry.2 here

end Listed

end Listed

inductive Visit where
  | type (type : CompiledType)
  | method (method : CompiledMethod)

def Visit.type? : Visit → Option CompiledType
  | .type visited => some visited
  | .method _ => none

def lastType (visits : List Visit) : Option CompiledType := (visits.filterMap Visit.type?).getLast?

/-- The visit at a place is that of a method, and the method and the type visited last before it
stand for an endpoint. -/
def Registers (visits : List Visit) (place : Nat) (endpoint : Endpoint) : Prop :=
  ∃ type method, visits[place]? = some (.method method) ∧ lastType (visits.take place) = some type ∧
    Declares type method endpoint

theorem lastType_type (visits : List Visit) (type : CompiledType) :
    lastType (visits ++ [.type type]) = some type := by
  simp [lastType, Visit.type?]

theorem lastType_method (visits : List Visit) (method : CompiledMethod) :
    lastType (visits ++ [.method method]) = lastType visits := by
  simp [lastType, Visit.type?]

theorem Registers.lt_length {visits : List Visit} {place : Nat} {endpoint : Endpoint}
    (registers : Registers visits place endpoint) : place < visits.length := by
  obtain ⟨type, method, here, _⟩ := registers
  exact (List.getElem?_eq_some_iff.mp here).1

theorem registers_concat (visits : List Visit) (visit : Visit) (place : Nat) (endpoint : Endpoint) :
    Registers (visits ++ [visit]) place endpoint ↔
      Registers visits place endpoint ∨ place = visits.length ∧
        ∃ type method, visit = .method method ∧ lastType visits = some type ∧
          Declares type method endpoint := by
  rcases Nat.lt_trichotomy place visits.length with inside | here | outside
  · have apart : place ≠ visits.length := Nat.ne_of_lt inside
    simp [Registers, List.getElem?_append_left inside,
      List.take_append_of_le_length (Nat.le_of_lt inside), apart]
  · subst here
    simp [Registers]
  · have apart : place ≠ visits.length := Nat.ne_of_gt outside
    have beyond : ¬ Registers (visits ++ [visit]) place endpoint := by
      intro registers
      have bound := registers.lt_length
      rw [List.length_append, List.length_singleton] at bound
      omega
    have absent : ¬ Registers visits place endpoint :=
      fun registers => Nat.lt_asymm outside registers.lt_length
    simp [beyond, absent, apart]

/-- What a registry holds after visits. -/
structure Tracks (visits : List Visit) (r : EndpointRegistry) : Prop where
  current : r.current = (lastType visits).map fun type =>
    (type.name, type.annotations.any isControllerUse)
  listed : Listed (Registers visits) r.table
  distinct : r.controllers.Nodup
  controllers : ∀ name, name ∈ r.controllers ↔ ∃ type, .type type ∈ visits ∧ IsController type ∧
    type.name = name

namespace Tracks

variable {visits : List Visit} {r : EndpointRegistry}

theorem start : Tracks [] {} where
  current := rfl
  listed := .empty fun _ _ registers => Nat.not_lt_zero _ registers.lt_length
  distinct := List.nodup_nil
  controllers name := by simp

theorem type (tracks : Tracks visits r) (type : CompiledType) : Tracks (visits ++ [.type type])
    (r.visitType type) where
  current := by
    rw [lastType_type]
    rfl
  listed := by
    have same : Registers (visits ++ [.type type]) = Registers visits := by
      funext place endpoint
      simp [registers_concat]
    rw [same]
    exact tracks.listed
  distinct := by
    simp only [visitType]
    split
    · exact nodup_insertNew _ tracks.distinct
    · exact tracks.distinct
  controllers name := by
    simp only [List.mem_append, List.mem_singleton, Visit.type.injEq, or_and_right, exists_or,
      exists_eq_left, ← tracks.controllers, visitType]
    split
    · rename_i controller
      rw [mem_insertNew, or_comm, and_iff_right ((isController_iff type).mp controller), eq_comm]
    · rename_i plain
      rw [isController_iff] at plain
      exact (or_iff_left fun both => plain both.1).symm

theorem methodUntyped (tracks : Tracks visits r) (untyped : lastType visits = none)
    (method : CompiledMethod) :
    Tracks (visits ++ [.method method]) r where
  current := by
    rw [lastType_method]
    exact tracks.current
  listed := by
    have same : Registers (visits ++ [.method method]) = Registers visits := by
      funext place endpoint
      simp [registers_concat, untyped]
    rw [same]
    exact tracks.listed
  distinct := tracks.distinct
  controllers name := by simp [tracks.controllers]

theorem method (tracks : Tracks visits r) {type : CompiledType}
    (typed : lastType visits = some type) (method : CompiledMethod) :
    Tracks (visits ++ [.method method]) (r.enter (endpointOf type method).toList) where
  current := by
    rw [lastType_method, ← tracks.current]
    cases endpointOf type method <;> rfl
  listed := by
    have adds (place : Nat) (endpoint : Endpoint) :
        Registers (visits ++ [.method method]) place endpoint ↔
        Registers visits place endpoint ∨ place = visits.length ∧
        endpointOf type method = some endpoint := by
      simp [registers_concat, typed, endpointOf_eq_some]
    cases found : endpointOf type method with
    | none =>
      have same : Registers (visits ++ [.method method]) = Registers visits := by
        funext place endpoint
        simp [adds, found]
      rw [same]
      exact tracks.listed
    | some endpoint =>
      apply tracks.listed.put fun _ _ => Registers.lt_length
      intro place other
      rw [adds, found, Option.some.injEq, eq_comm (a := endpoint)]
  distinct := by
    rw [controllers_enter]
    exact tracks.distinct
  controllers name := by simp [controllers_enter, tracks.controllers]

theorem methods (tracks : Tracks visits r) {type : CompiledType}
    (typed : lastType visits = some type) (methods : List CompiledMethod) :
    Tracks (visits ++ methods.map .method) (r.enter (methods.filterMap (endpointOf type))) := by
  induction methods generalizing visits r with
  | nil =>
    rw [List.map_nil, List.append_nil]
    exact tracks
  | cons method rest ih =>
    have next := ih (tracks.method typed method) ((lastType_method visits method).trans typed)
    rw [List.append_assoc, ← enter_append] at next
    rw [List.filterMap_eq_flatMap_toList] at next ⊢
    exact next

end Tracks

def visitsOf (type : CompiledType) : List Visit := .type type :: type.methods.map .method

theorem Tracks.scanType {visits : List Visit} {r : EndpointRegistry} (tracks : Tracks visits r)
    (type : CompiledType) :
    Tracks (visits ++ visitsOf type) ((r.visitType type).enter (declaredEndpoints type)) := by
  have all := (tracks.type type).methods (lastType_type visits type) type.methods
  rw [List.append_assoc] at all
  exact all

theorem Tracks.scan {visits : List Visit} {r : EndpointRegistry} (tracks : Tracks visits r)
    (types : List CompiledType) :
    Tracks (visits ++ types.flatMap visitsOf) (r.scan types).1 := by
  rw [scan_eq]
  induction types generalizing visits r with
  | nil =>
    rw [List.flatMap_nil, List.append_nil]
    exact tracks
  | cons type rest ih =>
    have next := ih (tracks.scanType type)
    rw [List.append_assoc] at next
    exact next

inductive Operation where
  | visit (visit : Visit)
  | scanType (type : CompiledType)
  | scan (types : List CompiledType)

def Operation.visits : Operation → List Visit
  | .visit one => [one]
  | .scanType type => visitsOf type
  | .scan types => types.flatMap visitsOf

def apply (r : EndpointRegistry) : Operation → EndpointRegistry
  | .visit (.type type) => r.visitType type
  | .visit (.method method) =>
    match r.visitMethod method with
    | .ok (_, r, _) => r
    | .error _ => r
  | .scanType type => (r.scanType type).2.1
  | .scan types => (r.scan types).1

def run (operations : List Operation) : EndpointRegistry := operations.foldl apply {}

section Tracks

variable {visits : List Visit} {r : EndpointRegistry}

theorem Tracks.visitMethod_untyped (tracks : Tracks visits r) (untyped : lastType visits = none)
    (method : CompiledMethod) : r.visitMethod method = .error .noType := by
  rw [visitMethod, tracks.current, untyped]
  rfl

theorem Tracks.visitMethod_typed (tracks : Tracks visits r) {type : CompiledType}
    (typed : lastType visits = some type) (method : CompiledMethod) : ∃ log, r.visitMethod method =
      .ok (endpointOf type method, r.enter (endpointOf type method).toList, log) := by
  obtain ⟨found, entered⟩ := visitMethodOf_eq r type method
  rw [visitMethod, tracks.current, typed, ← entered, ← found]
  exact ⟨_, rfl⟩

theorem Tracks.apply (tracks : Tracks visits r) (operation : Operation) :
    Tracks (visits ++ operation.visits) (r.apply operation) := by
  cases operation with
  | visit visit =>
    cases visit with
    | type type => exact tracks.type type
    | method method =>
      cases current : lastType visits with
      | none =>
        simp only [EndpointRegistry.apply, tracks.visitMethod_untyped current]
        exact tracks.methodUntyped current method
      | some type =>
        obtain ⟨log, outcome⟩ := tracks.visitMethod_typed current method
        simp only [EndpointRegistry.apply, outcome]
        exact tracks.method current method
  | scanType type =>
    simp only [EndpointRegistry.apply, (scanType_eq r type).2]
    exact tracks.scanType type
  | scan types => exact tracks.scan types

theorem Tracks.applyAll (tracks : Tracks visits r) (operations : List Operation) :
    Tracks (visits ++ operations.flatMap Operation.visits)
    (operations.foldl EndpointRegistry.apply r) := by
  induction operations generalizing visits r with
  | nil =>
    rw [List.flatMap_nil, List.append_nil]
    exact tracks
  | cons operation rest ih =>
    have next := ih (tracks.apply operation)
    rw [List.append_assoc] at next
    exact next

theorem tracks_run (operations : List Operation) : Tracks (operations.flatMap Operation.visits)
    (run operations) :=
  Tracks.start.applyAll operations

theorem Tracks.keys (tracks : Tracks visits r) : r.endpoints.map Endpoint.key = r.table.keys :=
  tracks.listed.keyed.names

theorem Tracks.mem_endpoints (tracks : Tracks visits r) (endpoint : Endpoint) :
    endpoint ∈ r.endpoints ↔ LastRegistered (Registers visits) endpoint := by
  rw [endpoints, tracks.listed.keyed.mem_values_iff, tracks.listed.stored]

end Tracks

/-- After any operations, the visit of a method fails if no type was visited. Otherwise it registers
the endpoint that the method and the type visited last stand for, which there is just if the type is
a controller and the method has a mapping annotation. The endpoints have distinct keys, in the order
in which they were registered first, each with what was registered under it last, and the
controllers are those that were visited. -/
theorem run_registers (operations : List Operation) :
    let visits := operations.flatMap Operation.visits
    let registry := run operations
    (∀ method, lastType visits = none → registry.visitMethod method = .error .noType) ∧
    (∀ method type, lastType visits = some type → ∃ found after log,
      registry.visitMethod method = .ok (found, after, log) ∧
      (found.isSome = true ↔ IsController type ∧ ∃ use ∈ method.annotations, ∃ own, use.Maps own) ∧
      (∀ endpoint, found = some endpoint ↔ Declares type method endpoint) ∧
      ∀ endpoint, found = some endpoint → endpoint ∈ after.endpoints) ∧
    (registry.endpoints.map Endpoint.key).Nodup ∧
    (registry.endpoints.map Endpoint.key).Pairwise (RegisteredBefore (Registers visits)) ∧
    (∀ endpoint, endpoint ∈ registry.endpoints ↔ LastRegistered (Registers visits) endpoint) ∧
    registry.controllers.Nodup ∧
    ∀ name, name ∈ registry.controllers ↔ ∃ type, .type type ∈ visits ∧ IsController type ∧
      type.name = name := by
  intro visits registry
  have tracks : Tracks visits registry := tracks_run operations
  refine ⟨?_, ?_, ?_, ?_, tracks.mem_endpoints, tracks.distinct, tracks.controllers⟩
  · intro method untyped
    exact tracks.visitMethod_untyped untyped method
  · intro method type typed
    obtain ⟨log, outcome⟩ := tracks.visitMethod_typed typed method
    refine ⟨_, _, log, outcome, isSome_endpointOf type method, endpointOf_eq_some type method, ?_⟩
    intro endpoint found
    rw [(tracks.method typed method).mem_endpoints]
    refine ⟨visits.length, ?_, ?_⟩
    · rw [registers_concat]
      exact .inr ⟨rfl, type, method, rfl, typed, (endpointOf_eq_some type method endpoint).mp found⟩
    · intro later other there _
      have bound := there.lt_length
      rw [List.length_append, List.length_singleton] at bound
      omega
  · rw [tracks.keys]
    exact tracks.listed.keyed.distinct
  · rw [tracks.keys]
    exact tracks.listed.ordered

def homeController : CompiledType :=
  { name := "shop.Home", path := "Home.class", access := 33, superName := none, interfaces := []
    annotations := [{ type := "web.RestController", values := [], visible := true }]
    methods := [
      { name := "list", descriptor := "()V", access := 1, code := none
        annotations := [
          { type := "web.GetMapping", values := [("value", .text "/items")], visible := true }] },
      { name := "add", descriptor := "()V", access := 1, code := none
        annotations := [
          { type := "web.GetMapping", values := [("path", .array [.text "/new"])],
            visible := true },
          { type := "web.RequestMapping", values := [("method", .array [.enum "web.Method" "PUT"])],
            visible := true }] }] }

def lateMethod : CompiledMethod :=
  { name := "again", descriptor := "()V", access := 1, code := none
    annotations := [
      { type := "web.GetMapping", values := [("path", .text "/items")], visible := true }] }

def lateType (marker : String) : CompiledType :=
  { name := "shop.Late", path := "Late.class", access := 33, superName := none, interfaces := [],
    methods := [lateMethod]
    annotations := [{ type := marker, values := [], visible := true }] }

/-- The type is no controller when it is visited first. -/
def replacingOperations : List Operation :=
  [.visit (.method lateMethod), .scan [homeController], .visit (.type (lateType "web.Service")),
    .visit (.method lateMethod), .scanType (lateType "web.Controller")]

theorem run_registers_replacing :
    (run []).visitMethod lateMethod = .error .noType ∧
    (∃ found after log, (run replacingOperations).visitMethod lateMethod = .ok (found, after, log) ∧
      found.isSome = true) ∧
      (run replacingOperations).endpoints =
      [⟨"GET", "/items", "shop.Late.again"⟩, ⟨"PUT", "/new", "shop.Home.add"⟩] ∧
    RegisteredBefore
      (Registers (replacingOperations.flatMap Operation.visits)) "GET /items" "PUT /new" ∧
    LastRegistered (Registers (replacingOperations.flatMap Operation.visits))
    ⟨"GET", "/items", "shop.Late.again"⟩ ∧
    ¬ LastRegistered (Registers (replacingOperations.flatMap Operation.visits))
    ⟨"GET", "/items", "shop.Home.list"⟩ ∧ "shop.Late" ∈ (run replacingOperations).controllers := by
  have listed : (run replacingOperations).endpoints =
      [⟨"GET", "/items", "shop.Late.again"⟩, ⟨"PUT", "/new", "shop.Home.add"⟩] := by
    decide +kernel
  obtain ⟨untyped, _⟩ := run_registers []
  obtain ⟨_, typed, _, ordered, stored, _, controllers⟩ := run_registers replacingOperations
  obtain ⟨found, after, log, outcome, registered, _⟩ :=
    typed lateMethod (lateType "web.Controller") rfl
  rw [listed] at ordered stored
  refine ⟨untyped lateMethod rfl, ⟨found, after, log, outcome, registered.mpr ⟨?_, ?_⟩⟩, listed,
    ?_, ?_, ?_, ?_⟩
  · exact ⟨_, List.mem_cons_self, by decide⟩
  · exact ⟨_, List.mem_cons_self, "GET", (AnnotationUse.maps_iff _ _).mpr (by decide)⟩
  · exact List.rel_of_pairwise_cons ordered List.mem_cons_self
  · exact (stored _).mp List.mem_cons_self
  · rw [← stored]
    decide
  · apply (controllers "shop.Late").mpr
    refine ⟨lateType "web.Controller", ?_, ⟨_, List.mem_cons_self, by decide⟩, rfl⟩
    simp [replacingOperations, Operation.visits, visitsOf]

end CallAtlas.EndpointRegistry
