import CallAtlas.Proofs.CallEdges
import CallAtlas.Proofs.FittingOutlines

/-!
Loading the bodies of a type, all or none, and extracting its calls: which of its methods each of
them decodes. Extraction decodes all methods; loading passes over overloads once one of them has
code.
-/

namespace CallAtlas

open ClassFile Bytecode Files

theorem listing_eq_error {type : CompiledType} {method : CompiledMethod} {e : DecodeError} :
    listing type.pool method = .error e ↔ methodCalls type method = .error e := by
  unfold listing methodCalls
  cases method.code with
  | none => simp [pure, Except.pure]
  | some code => exact bind_pure_eq_error.trans bind_pure_eq_error.symm

theorem intercalate_ne_empty (lines : List String) (first second : String) :
    ("\n".intercalate (lines ++ [first, second])).isEmpty = false := by
  have parts :
      lines ++ [first, second] = (lines ++ [first]) ++ [second] := by rw [List.append_assoc]; rfl
  have left : lines ++ [first] ≠ [] :=
    List.append_ne_nil_of_right_ne_nil lines (List.cons_ne_nil first [])
  have nonempty : "\n".intercalate (lines ++ [first, second]) ≠ "" := by
    intro empty
    have lengths := congrArg String.length empty
    rw [parts, String.intercalate_append_of_ne_nil left (List.cons_ne_nil second []),
      String.length_append, String.length_append] at lengths
    have line : "\n".length = 1 := rfl
    have none : "".length = 0 := rfl
    omega
  simpa [String.isEmpty_iff] using nonempty

theorem listing_isEmpty {pool : Pool} {method : CompiledMethod} {text : String}
    (listed : listing pool method = .ok text) :
    text.isEmpty = method.code.isNone := by
  unfold listing at listed
  cases present : method.code with
  | none =>
    rw [present] at listed
    cases listed
    rfl
  | some code =>
    simp only [present, bind_eq_ok] at listed
    obtain ⟨instructions, _, finish⟩ := listed
    cases finish
    exact intercalate_ne_empty _ _ _

def CallGraph.extraction (graph : CallGraph) (prefixes : List String) (type : CompiledType) :
    Decoded AddedCalls :=
  ((GraphRun.addType prefixes type).outcome graph).1

theorem CallGraph.extraction_eq_error {graph : CallGraph} {prefixes : List String}
    {type : CompiledType} {e : DecodeError} : graph.extraction prefixes type = .error e ↔
      type.methods.mapM (methodCalls type) = .error e := by
  rw [extraction, GraphRun.addType_outcome, ← bind_pure_eq_error (f := List.flatten)]
  change _ ↔ typeCalls type = .error e
  cases typeCalls type <;> simp

theorem CallGraph.extraction_fails_iff {graph : CallGraph} {prefixes : List String}
    {type : CompiledType} :
    (∃ e, graph.extraction prefixes type = .error e) ↔ ¬ Decodes type := by
  simp only [extraction, GraphRun.addType_outcome]
  cases outcome : typeCalls type with
  | error e => exact iff_of_true ⟨e, rfl⟩ (typeCalls_error outcome)
  | ok calls => exact iff_of_false nofun (not_not_intro (typeCalls_ok outcome).1)

/-- The methods of which no earlier one of that name has code, nor one of the names in `covered`. -/
def leadingMethods (covered : List String) : List CompiledMethod → List CompiledMethod
  | [] => []
  | method :: rest =>
    if method.name ∈ covered then leadingMethods covered rest
    else method ::
      leadingMethods (if method.code.isSome then method.name :: covered else covered) rest

def leading (type : CompiledType) : CompiledType :=
  { type with methods := leadingMethods [] type.methods }

theorem name_notMem_covered {covered : List String} {methods : List CompiledMethod}
    {method : CompiledMethod} (leads : method ∈ leadingMethods covered methods) :
    method.name ∉ covered := by
  induction methods generalizing covered with
  | nil => cases leads
  | cons first rest ih =>
    rw [leadingMethods] at leads
    split at leads
    · exact ih leads
    · rename_i fresh
      rcases List.mem_cons.mp leads with rfl | later
      · exact fresh
      · have outside := ih later
        split at outside
        · exact fun member => outside (List.mem_cons_of_mem _ member)
        · exact outside

theorem leadingMethods_subset {covered : List String} {methods : List CompiledMethod} :
    leadingMethods covered methods ⊆ methods := by
  induction methods generalizing covered with
  | nil => exact List.Subset.refl _
  | cons first rest ih =>
    rw [leadingMethods]
    split
    · exact List.subset_cons_of_subset first ih
    · exact List.cons_subset_cons first ih

theorem Decodes.leading {type : CompiledType} (decodes : Decodes type) : Decodes (leading type) :=
  fun method leads => decodes method (leadingMethods_subset leads)

theorem mapM_leadingMethods {type : CompiledType} {covered : List String}
    {methods : List CompiledMethod} {e : DecodeError}
    (others : ∀ method ∈ methods, method ∈ leadingMethods covered methods ∨
      ∃ calls, methodCalls type method = .ok calls) :
    (leadingMethods covered methods).mapM (methodCalls type) = .error e ↔
      methods.mapM (methodCalls type) = .error e := by
  induction methods generalizing covered with
  | nil => exact Iff.rfl
  | cons first rest ih =>
    rw [mapM_cons_eq_error]
    by_cases passed : first.name ∈ covered
    · rw [leadingMethods, if_pos passed] at others ⊢
      have decodes : ∃ calls, methodCalls type first = .ok calls := by
        rcases others first List.mem_cons_self with leads | decodes
        · exact absurd passed (name_notMem_covered leads)
        · exact decodes
      obtain ⟨calls, done⟩ := decodes
      rw [ih fun method member => others method (List.mem_cons_of_mem first member), done]
      simp
    · rw [leadingMethods, if_neg passed] at others ⊢
      rw [mapM_cons_eq_error]
      apply or_congr_right
      apply and_congr_right
      intro decodes
      apply ih
      intro method member
      rcases others method (List.mem_cons_of_mem first member) with leads | decoded
      · rcases List.mem_cons.mp leads with rfl | later
        · exact .inr decodes
        · exact .inl later
      · exact .inr decoded

namespace Project

namespace TypeBodies

def Covers (type : CompiledType) (bodies : TypeBodies) (covered : List String) : Prop :=
  ∀ name, hasListing (MethodId.ofOwner type.name name) bodies.listings = true ↔ name ∈ covered

variable {type : CompiledType} {bodies : TypeBodies} {covered : List String}

theorem addMethod_of_covered (source : TypeSource) (covers : Covers type bodies covered)
    {method : CompiledMethod} (passed : method.name ∈ covered) :
    addMethod [] type source bodies method = .ok bodies := by
  have listed := (covers method.name).mpr passed
  simp only [addMethod, listed, Bool.true_or, ↓reduceIte]

theorem covers_put (covers : Covers type bodies covered) {method : CompiledMethod}
    (leads : method.name ∉ covered) {text : String} (listed : listing type.pool method = .ok text)
    {infos : Table MethodId MethodInfo} :
    Covers type ⟨bodies.listings.put (MethodId.ofOwner type.name method.name) text, infos⟩
      (if method.code.isSome then method.name :: covered else covered) := by
  intro name
  simp only [hasListing, Table.get?_put, MethodId.ofOwner_inj]
  have size := listing_isEmpty listed
  by_cases same : method.name = name
  · subst same
    rw [if_pos rfl, Option.getD_some, size]
    cases method.code with
    | none => simp [leads]
    | some code => simp
  · rw [if_neg same]
    have old := covers name
    rw [hasListing] at old
    rw [old]
    cases method.code with
    | none => rfl
    | some code => simp [Ne.symm same]

theorem addMethod_of_leading (source : TypeSource) (covers : Covers type bodies covered)
    {method : CompiledMethod} (leads : method.name ∉ covered) :
    (∃ e, methodCalls type method = .error e ∧
      addMethod [] type source bodies method = .error (.decode e)) ∨
      (∃ calls, methodCalls type method = .ok calls) ∧
        ∃ next, addMethod [] type source bodies method = .ok next ∧
        Covers type next (if method.code.isSome then method.name :: covered else covered) ∧
          ∀ id, (next.infos.get? id).isSome = true ↔
            id = MethodId.ofOwner type.name method.name ∨ (bodies.infos.get? id).isSome = true := by
  have unlisted : hasListing (MethodId.ofOwner type.name method.name) bodies.listings = false := by
    rw [← Bool.not_eq_true, covers]
    exact leads
  have before : hasListing (MethodId.ofOwner type.name method.name) [] = false := rfl
  simp only [addMethod, unlisted, before, Bool.or_self, Bool.false_eq_true, ↓reduceIte]
  cases outcome : listing type.pool method with
  | error e => exact .inl ⟨e, listing_eq_error.mp outcome, rfl⟩
  | ok text =>
    obtain ⟨body, found⟩ := source.exists_body? type.name method.name
    rw [found]
    refine .inr ⟨?_, _, rfl, covers_put covers leads outcome, ?_⟩
    · cases calls : methodCalls type method with
      | error e =>
        rw [listing_eq_error.mpr calls] at outcome
        cases outcome
      | ok found => exact ⟨found, rfl⟩
    · intro id
      rw [Table.get?_put]
      by_cases same : MethodId.ofOwner type.name method.name = id
      · simp [same]
      · simp [same, Ne.symm same]

/-- A run over methods fails as decoding the leading ones does, and enters all of them if it does
not fail. -/
theorem foldlM_addMethod (source : TypeSource) (covers : Covers type bodies covered)
    (methods : List CompiledMethod)
    (entered : ∀ name ∈ covered, (bodies.infos.get? (MethodId.ofOwner type.name name)).isSome =
      true) :
    (∃ e, (leadingMethods covered methods).mapM (methodCalls type) = .error e ∧
      methods.foldlM (addMethod [] type source) bodies = .error (.decode e)) ∨
    (∃ calls, (leadingMethods covered methods).mapM (methodCalls type) = .ok calls) ∧
      ∃ last, methods.foldlM (addMethod [] type source) bodies = .ok last ∧
        (∀ id, (bodies.infos.get? id).isSome = true → (last.infos.get? id).isSome = true) ∧
          ∀ method ∈ methods, (last.infos.get? (MethodId.ofOwner type.name method.name)).isSome =
            true := by
  induction methods generalizing bodies covered with
  | nil => exact .inr ⟨⟨[], rfl⟩, bodies, rfl, fun _ present => present, by simp⟩
  | cons first rest ih =>
    by_cases passed : first.name ∈ covered
    · rw [leadingMethods, if_pos passed,
        foldlM_cons_of_ok rest (addMethod_of_covered source covers passed)]
      rcases ih covers entered with failed | ⟨decodes, last, run, kept, all⟩
      · exact .inl failed
      · refine .inr ⟨decodes, last, run, kept, ?_⟩
        rw [List.forall_mem_cons]
        exact ⟨kept _ (entered first.name passed), all⟩
    · rw [leadingMethods, if_neg passed]
      rcases addMethod_of_leading source covers passed with
        ⟨e, calls, step⟩ | ⟨⟨calls, done⟩, next, step, covers', infos⟩
      · refine .inl ⟨e, mapM_cons_eq_error.mpr (.inl calls), foldlM_cons_of_error rest step⟩
      · rw [foldlM_cons_of_ok rest step]
        have entered' : ∀ name ∈ (if first.code.isSome then first.name :: covered else covered),
            (next.infos.get? (MethodId.ofOwner type.name name)).isSome = true := by
          intro name member
          rw [infos, MethodId.ofOwner_inj]
          split at member
          · rcases List.mem_cons.mp member with here | old
            · exact .inl here
            · exact .inr (entered name old)
          · exact .inr (entered name member)
        rcases ih covers' entered' with ⟨e, failed, run⟩ | ⟨⟨more, decodes⟩, last, run, kept, all⟩
        · exact .inl ⟨e, mapM_cons_eq_error.mpr (.inr ⟨⟨calls, done⟩, failed⟩), run⟩
        · refine .inr ⟨⟨calls :: more, ?_⟩, last, run, ?_, ?_⟩
          · rw [List.mapM_cons, done, decodes]
            rfl
          · intro id present
            exact kept id ((infos id).mpr (.inr present))
          · rw [List.forall_mem_cons]
            exact ⟨kept _ ((infos _).mpr (.inl rfl)), all⟩

end TypeBodies

namespace BodyStore

theorem sourceOf_eq {disk : Disk} {type : CompiledType} {store located : BodyStore}
    {source : TypeSource} {log : Log}
    (found : store.sourceOf disk type = .ok (source, located, log)) :
    ∃ locator, located = { store with locator } := by
  unfold sourceOf at found
  obtain ⟨⟨path, locator, log'⟩, _, rest⟩ := bind_eq_ok.mp found
  cases path with
  | none =>
    cases rest
    exact ⟨_, rfl⟩
  | some path =>
    cases rest
    exact ⟨_, rfl⟩

theorem sourceOf_stored {disk : Disk} {type : CompiledType} {store located : BodyStore}
    {source : TypeSource} {log : Log}
    (found : store.sourceOf disk type = .ok (source, located, log)) :
    located.listings = store.listings ∧ located.infos = store.infos := by
  obtain ⟨locator, rfl⟩ := sourceOf_eq found
  exact ⟨rfl, rfl⟩

/-- The bodies of a type are not stored just when the calls of its leading methods cannot be
extracted, and then no calls are extracted either. The converse holds just if the type can be
decoded whenever its leading methods can; the error is the same if the methods that loading passes
over can be decoded. -/
theorem load_abandoned_iff (disk : Disk) (type : CompiledType) (store : BodyStore)
    (fresh : store.listings = [] ∧ store.infos = []) {source : TypeSource}
    {located : BodyStore} {log : Log}
    (found : store.sourceOf disk type = .ok (source, located, log)) (graph : CallGraph)
    (prefixes : List String) :
    ∃ after error, store.addType disk type = (after, log, error.map LoadError.decode) ∧
      (∀ e, error = some e ↔ graph.extraction prefixes (leading type) = .error e) ∧
        (error ≠ none → after.listings = [] ∧ after.infos = [] ∧
        ∃ e, graph.extraction prefixes type = .error e) ∧
      (error = none → ∀ method ∈ type.methods,
        (after.infos.get? (MethodId.ofOwner type.name method.name)).isSome = true) ∧
      ((error ≠ none ↔ ∃ e, graph.extraction prefixes type = .error e) ↔
        (Decodes (leading type) → Decodes type)) ∧
        ((∀ method ∈ type.methods, method ∈ (leading type).methods ∨
          ∃ calls, methodCalls type method = .ok calls) →
        ∀ e, error = some e ↔ graph.extraction prefixes type = .error e) := by
  obtain ⟨listings, infos⟩ := sourceOf_stored found
  rw [fresh.1] at listings
  rw [fresh.2] at infos
  have start : TypeBodies.Covers type {} [] := by
    intro name
    simp [hasListing, Table.get?]
  have extraction (e : DecodeError) : graph.extraction prefixes (leading type) = .error e ↔
      (leadingMethods [] type.methods).mapM (methodCalls type) = .error e :=
        CallGraph.extraction_eq_error
  rcases TypeBodies.foldlM_addMethod source start type.methods (by simp) with
    ⟨reason, failed, run⟩ | ⟨⟨calls, decodes⟩, bodies, run, _, entered⟩
  · have abandoned (e : DecodeError) : some reason = some e ↔
        graph.extraction prefixes (leading type) = .error e := by
      rw [extraction, failed]
      simp
    have broken : ¬ Decodes (leading type) :=
      CallGraph.extraction_fails_iff.mp ⟨reason, (abandoned reason).mp rfl⟩
    have noEdges : ∃ e, graph.extraction prefixes type = .error e :=
      CallGraph.extraction_fails_iff.mpr fun whole => broken (whole.leading)
    refine ⟨located, some reason, ?_, abandoned, fun _ => ⟨listings, infos, noEdges⟩, ?_, ?_, ?_⟩
    · simp only [addType, found, listings, TypeBodies.ofType, run, Option.map_some]
    · intro impossible
      exact absurd impossible (Option.some_ne_none reason)
    · exact iff_of_true (iff_of_true (Option.some_ne_none reason) noEdges) (absurd · broken)
    · intro others e
      rw [abandoned, extraction, CallGraph.extraction_eq_error]
      exact mapM_leadingMethods others
  · have loaded (e : DecodeError) : none = some e ↔
        graph.extraction prefixes (leading type) = .error e := by
      rw [extraction, decodes]
      simp
    have sound : Decodes (leading type) := by
      by_contra broken
      obtain ⟨e, failed⟩ := CallGraph.extraction_fails_iff.mpr broken
      cases (loaded e).mpr failed
    refine ⟨located.merge source bodies, none, ?_, loaded, ?_, ?_, ?_, ?_⟩
    · simp only [addType, found, listings, TypeBodies.ofType, run, Option.map_none]
    · intro impossible
      exact absurd rfl impossible
    · intro _ method member
      exact Table.isSome_get?_merge _ located.infos bodies.infos (.inr (entered method member))
    · simp only [CallGraph.extraction_fails_iff, ne_eq, not_true_eq_false, false_iff, not_not,
        sound, forall_const]
    · intro others e
      rw [loaded, extraction, CallGraph.extraction_eq_error]
      exact mapM_leadingMethods others

def bareStore : BodyStore := { parser := .bare }

def brokenType : CompiledType :=
  { name := "A", path := "A.class", access := 33, superName := none, interfaces := []
    methods := [{ name := "a", descriptor := "()V", access := 1025 },
      { name := "a", descriptor := "(I)V", access := 1, code := some [0xB1] },
      { name := "b", descriptor := "()V", access := 1, code := some [0xFF] }] }

theorem load_abandoned_broken : ∃ after log,
    bareStore.addType {} brokenType =
    (after, log, some (.decode (.format (.unknownOpcode 0xFF 0)))) ∧
      after.listings = [] ∧ after.infos = [] := by
  have extraction :
      typeCalls (leading brokenType) = .error (.format (.unknownOpcode 0xFF 0)) := by decide +kernel
  cases found : bareStore.sourceOf {} brokenType with
  | error fault =>
    have finds : (bareStore.sourceOf {} brokenType).isOk = true := by decide +kernel
    rw [found] at finds
    cases finds
  | ok place =>
    obtain ⟨source, located, log⟩ := place
    obtain ⟨after, error, step, abandoned, nothing, _⟩ :=
      load_abandoned_iff {} brokenType bareStore ⟨rfl, rfl⟩ found CallGraph.empty []
    have isError :=
      (abandoned _).mpr (CallGraph.extraction_eq_error.mpr (bind_pure_eq_error.mp extraction))
    rw [isError] at step nothing
    obtain ⟨listings, infos, _⟩ := nothing (Option.some_ne_none _)
    exact ⟨after, log, step, listings, infos⟩

/-- A type of which the second overload cannot be decoded: its body is stored, its calls are not
extracted. -/
def overloadedType : CompiledType :=
  { name := "A", path := "A.class", access := 33, superName := none, interfaces := []
    methods := [{ name := "a", descriptor := "()V", access := 1, code := some [0xB1] },
      { name := "a", descriptor := "(I)V", access := 1, code := some [0xFF] }] }

theorem load_keeps_overloaded :
    typeCalls overloadedType = .error (.format (.unknownOpcode 0xFF 0)) ∧
      (bareStore.addType {} overloadedType).2.2 = none ∧
        (bareStore.addType {} overloadedType).1.infos.keys = ["A.a"] := by
  refine ⟨?_, ?_, ?_⟩ <;> decide +kernel

end BodyStore

end Project

end CallAtlas
