import CallAtlas.Proofs.BodyLoading

/-!
Which declaration the stored body of a method comes from. Among the types that were stored, in any
number of calls, the first declaration with code counts, and the last one if none has code.
-/

namespace CallAtlas

open ClassFile Bytecode Files

namespace Project

/-- A method as a type declares it, with what was found of the type's source. -/
structure Declaration where
  type : CompiledType
  source : TypeSource
  method : CompiledMethod

namespace Declaration

def id (d : Declaration) : MethodId := MethodId.ofOwner d.type.name d.method.name

def hasCode (d : Declaration) : Bool := d.method.code.isSome

def info (d : Declaration) (found : Option (String × Option String)) (text : String) : MethodInfo :=
  { id := d.id
    name := d.method.name
    descriptor := d.method.descriptor
    typeName := d.type.name
    access := d.method.access
    path := (found.map Prod.snd).getD (some d.type.path)
    body := (found.map Prod.fst).getD text }

end Declaration

/-- The declaration that counts for an identifier: the first with code, or else the last. -/
def decisive (id : MethodId) (declarations : List Declaration) : Option Declaration :=
  let own := declarations.filter fun d => d.id = id
  (own.find? Declaration.hasCode).or own.getLast?

theorem decisive_concat (id : MethodId) (declarations : List Declaration) (d : Declaration) :
    decisive id (declarations ++ [d]) =
      if d.id = id ∧ (decisive id declarations).any Declaration.hasCode = false then some d
      else decisive id declarations := by
  unfold decisive
  by_cases own : d.id = id
  · have last : [d].filter (fun d => decide (d.id = id)) = [d] :=
      List.filter_cons_of_pos (decide_eq_true own)
    simp only [List.filter_append, last, List.find?_append, List.getLast?_concat]
    generalize declarations.filter (fun d => decide (d.id = id)) = earlier
    cases first : earlier.find? Declaration.hasCode with
    | some counted =>
      have code : counted.hasCode = true := List.find?_some first
      simp [code]
    | none =>
      have codeless : earlier.getLast?.any Declaration.hasCode = false := by
        cases last : earlier.getLast? with
        | none => rfl
        | some d => simpa using List.find?_eq_none.mp first d (List.mem_of_getLast? last)
      rw [Option.none_or, Option.none_or, if_pos ⟨own, codeless⟩]
      cases code : d.hasCode <;> simp [code]
  · simp [own, List.filter_append]

def ComesFrom (text : Option String) (info : Option MethodInfo) : Option Declaration → Prop
  | none => text = none ∧ info = none
  | some d => ∃ listed found, listing d.type.pool d.method = .ok listed ∧
      d.source.body? d.type.name d.method.name = .ok found ∧ text = some listed ∧
      info = some (d.info found listed)

namespace TypeBodies

theorem addMethod_eq (stored : Table MethodId String) (bodies : TypeBodies) (d : Declaration) :
    addMethod stored d.type d.source bodies d.method =
      if hasListing d.id bodies.listings || hasListing d.id stored then .ok bodies
      else do
        let text ← (listing d.type.pool d.method).mapError .decode
        let found ← (d.source.body? d.type.name d.method.name).mapError .source
        return ⟨bodies.listings.put d.id text, bodies.infos.put d.id (d.info found text)⟩ := by
  obtain ⟨found, searched⟩ := d.source.exists_body? d.type.name d.method.name
  rw [addMethod, Declaration.id, searched]
  unfold Declaration.info
  cases found <;> rfl

/-- The bodies of a type so far, in front of the store: each identifier has what its decisive
declaration gives. A method that the store lists with code is not among the new ones. -/
structure Gathers (stored : BodyStore) (bodies : TypeBodies)
    (declarations : List Declaration) : Prop where
  entries : ∀ id, ComesFrom ((bodies.listings.get? id).or (stored.listings.get? id))
    ((bodies.infos.get? id).or (stored.infos.get? id)) (decisive id declarations)
  passes : ∀ id, hasListing id stored.listings = true → bodies.listings.get? id = none
  listed : bodies.listings.keys.Nodup
  known : bodies.infos.keys.Nodup

namespace Gathers

variable {stored : BodyStore} {bodies next : TypeBodies} {declarations : List Declaration}

theorem hasListing_eq (gathers : Gathers stored bodies declarations) (id : MethodId) :
    (hasListing id bodies.listings || hasListing id stored.listings) =
      (decisive id declarations).any Declaration.hasCode := by
  have entry := gathers.entries id
  have passes := gathers.passes id
  unfold hasListing at passes ⊢
  cases counted : decisive id declarations with
  | none =>
    rw [counted] at entry
    obtain ⟨new, old⟩ := Option.or_eq_none_iff.mp entry.1
    rw [new, old]
    rfl
  | some d =>
    rw [counted] at entry
    obtain ⟨text, _, listed, _, here, _⟩ := entry
    have size : (!text.isEmpty) = d.hasCode := by
      rw [listing_isEmpty listed, Declaration.hasCode]
      cases d.method.code <;> rfl
    rw [Option.any_some, ← size]
    cases new : bodies.listings.get? id with
    | none =>
      rw [new, Option.none_or] at here
      rw [here]
      rfl
    | some own =>
      rw [new, Option.some_or] at here
      have unlisted : (!((stored.listings.get? id).getD "").isEmpty) = false := by
        rw [← Bool.not_eq_true]
        intro covered
        rw [passes covered] at new
        cases new
      rw [unlisted, Bool.or_false, Option.getD_some, Option.some.inj here]

theorem addMethod (gathers : Gathers stored bodies declarations) {d : Declaration}
    (added : addMethod stored.listings d.type d.source bodies d.method = .ok next) :
    Gathers stored next (declarations ++ [d]) := by
  have covered := gathers.hasListing_eq d.id
  rw [addMethod_eq, covered] at added
  cases code : (decisive d.id declarations).any Declaration.hasCode with
  | true =>
    rw [code, if_pos rfl] at added
    cases added
    refine ⟨?_, gathers.passes, gathers.listed, gathers.known⟩
    intro id
    rw [decisive_concat, if_neg]
    · exact gathers.entries id
    · rintro ⟨rfl, codeless⟩
      exact Bool.false_ne_true (codeless.symm.trans code)
  | false =>
    rw [code, if_neg Bool.false_ne_true] at added
    obtain ⟨found, searched⟩ := d.source.exists_body? d.type.name d.method.name
    obtain ⟨text, listed, rest⟩ := bind_eq_ok.mp added
    rw [searched] at rest
    cases rest
    rw [code] at covered
    refine ⟨?_, ?_, ?_, ?_⟩
    · intro id
      rw [decisive_concat, Table.get?_put, Table.get?_put]
      by_cases own : d.id = id
      · subst own
        rw [if_pos rfl, if_pos rfl, if_pos ⟨rfl, code⟩]
        exact ⟨text, found, mapError_eq_ok.mp listed, searched, rfl, rfl⟩
      · rw [if_neg own, if_neg own, if_neg fun both => own both.1]
        exact gathers.entries id
    · intro id present
      have other : d.id ≠ id := by
        rintro rfl
        rw [present, Bool.or_true] at covered
        cases covered
      rw [Table.get?_put, if_neg other]
      exact gathers.passes id present
    · exact Table.nodup_keys_put gathers.listed _ _
    · exact Table.nodup_keys_put gathers.known _ _

theorem foldlM_addMethod (gathers : Gathers stored bodies declarations) {type : CompiledType}
    {source : TypeSource} {methods : List CompiledMethod}
    (added : methods.foldlM (TypeBodies.addMethod stored.listings type source) bodies = .ok next) :
    Gathers stored next (declarations ++ methods.map fun method => ⟨type, source, method⟩) := by
  induction methods generalizing bodies declarations with
  | nil =>
    cases added
    rw [List.map_nil, List.append_nil]
    exact gathers
  | cons method rest ih =>
    rw [List.foldlM_cons] at added
    obtain ⟨middle, first, later⟩ := bind_eq_ok.mp added
    have all := ih (gathers.addMethod (d := ⟨type, source, method⟩) first) later
    rwa [List.append_assoc] at all

end Gathers

end TypeBodies

structure Attempt where
  disk : Disk
  type : CompiledType
  before : BodyStore

namespace Attempt

def after (attempt : Attempt) : BodyStore := (attempt.before.addType attempt.disk attempt.type).1

def error (attempt : Attempt) : Option LoadError :=
  (attempt.before.addType attempt.disk attempt.type).2.2

def ends (attempt : Attempt) : Bool :=
  match attempt.error with
  | none => false
  | some (.decode (.format _)) => false
  | some _ => true

theorem error_of_ends {attempt : Attempt} (ends : attempt.ends = true) :
    ∃ error, attempt.error = some error ∧ ∀ e, error ≠ .decode (.format e) := by
  unfold Attempt.ends at ends
  split at ends
  · cases ends
  · cases ends
  · rename_i error other failed
    exact ⟨error, failed, fun e same => other e (same ▸ rfl)⟩

def declarations (attempt : Attempt) : List Declaration :=
  match attempt.error, attempt.before.sourceOf attempt.disk attempt.type with
  | none, .ok (source, _, _) =>
    attempt.type.methods.map fun method => ⟨attempt.type, source, method⟩
  | _, _ => []

/-- What a try can do: it fails and stores nothing, or it stores the bodies of the whole type. -/
theorem cases (attempt : Attempt) :
    (attempt.error ≠ none ∧ attempt.declarations = [] ∧
      attempt.after.listings = attempt.before.listings ∧
      attempt.after.infos = attempt.before.infos ∧
      attempt.after.sourceHits = attempt.before.sourceHits) ∨
    ∃ source bodies, attempt.error = none ∧
      attempt.declarations =
      attempt.type.methods.map (fun method => ⟨attempt.type, source, method⟩) ∧
      TypeBodies.ofType attempt.before.listings attempt.type source = .ok bodies ∧
      attempt.after.listings = attempt.before.listings.merge bodies.listings ∧
      attempt.after.infos = attempt.before.infos.merge bodies.infos := by
  cases found : attempt.before.sourceOf attempt.disk attempt.type with
  | error fault =>
    left
    simp [declarations, error, after, BodyStore.addType, found]
  | ok place =>
    obtain ⟨source, located, log⟩ := place
    obtain ⟨locator, rfl⟩ := BodyStore.sourceOf_eq found
    cases made : TypeBodies.ofType attempt.before.listings attempt.type source with
    | error e =>
      left
      simp [declarations, error, after, BodyStore.addType, found, made]
    | ok bodies =>
      refine .inr ⟨source, bodies, ?_, ?_, made, ?_, ?_⟩ <;>
        simp [declarations, error, after, BodyStore.addType, BodyStore.merge, found, made]

end Attempt

namespace BodyStore

/-- The store has for each identifier what its decisive declaration gives. -/
def Reflects (store : BodyStore) (declarations : List Declaration) : Prop :=
  ∀ id, ComesFrom (store.listings.get? id) (store.infos.get? id) (decisive id declarations)

variable {store : BodyStore} {declarations : List Declaration}

theorem Reflects.attempt {attempt : Attempt} (reflects : attempt.before.Reflects declarations) :
    attempt.after.Reflects (declarations ++ attempt.declarations) := by
  rcases attempt.cases with ⟨_, none, listings, infos, _⟩ |
    ⟨source, bodies, _, own, made, listings, infos⟩
  · rw [none, List.append_nil, Reflects, listings, infos]
    exact reflects
  · have start : TypeBodies.Gathers attempt.before {} declarations :=
      ⟨reflects, fun _ _ => rfl, .nil, .nil⟩
    have all := start.foldlM_addMethod made
    intro id
    rw [own, listings, infos, Table.get?_merge _ _ all.listed, Table.get?_merge _ _ all.known]
    exact all.entries id

def attempts (disk : Disk) : List CompiledType → BodyStore → List Attempt
  | [], _ => []
  | type :: rest, store =>
    let attempt : Attempt := ⟨disk, type, store⟩
    attempt :: if attempt.ends then [] else attempts disk rest attempt.after

theorem addTypes_cons (attempt : Attempt) (rest : List CompiledType) :
    (addTypes attempt.disk (attempt.type :: rest) attempt.before).1 =
      (if attempt.ends then attempt.after else (addTypes attempt.disk rest attempt.after).1) ∧
    (addTypes attempt.disk (attempt.type :: rest) attempt.before).2.2 =
      if attempt.ends then attempt.error else (addTypes attempt.disk rest attempt.after).2.2 := by
  rw [BodyStore.addTypes]
  unfold Attempt.ends Attempt.error Attempt.after
  rcases attempt.before.addType attempt.disk attempt.type with ⟨next, log, _ | ⟨_ | _⟩ | _⟩ <;> simp

theorem Reflects.addTypes (disk : Disk) (types : List CompiledType)
    (reflects : store.Reflects declarations) :
    (store.addTypes disk types).1.Reflects
      (declarations ++ (store.attempts disk types).flatMap Attempt.declarations) := by
  induction types generalizing store declarations with
  | nil =>
    rw [attempts, List.flatMap_nil, List.append_nil]
    exact reflects
  | cons type rest ih =>
    have next :
        (Attempt.after ⟨disk, type, store⟩).Reflects
          (declarations ++ Attempt.declarations ⟨disk, type, store⟩) :=
      reflects.attempt
    rw [(addTypes_cons ⟨disk, type, store⟩ rest).1, attempts, List.flatMap_cons,
      ← List.append_assoc]
    cases (⟨disk, type, store⟩ : Attempt).ends with
    | true => simpa using next
    | false => simpa using ih next

theorem load_eq (disk : Disk) (types : List CompiledType) (store : BodyStore) :
    (store.load disk types).1 = (store.addTypes disk types).1 ∧
      (store.load disk types).2.2 = (store.addTypes disk types).2.2 := by
  unfold load
  rcases store.addTypes disk types with ⟨next, log, _ | _⟩ <;> exact ⟨rfl, rfl⟩

theorem attempts_types (disk : Disk) (types : List CompiledType) (store : BodyStore) :
    (store.load disk types).2.2 = none ∧ (store.attempts disk types).map Attempt.type = types ∨
    ∃ error earlier last rest, (store.load disk types).2.2 = some error ∧
      (∀ e, error ≠ .decode (.format e)) ∧ store.attempts disk types = earlier ++ [last] ∧
      last.error = some error ∧ types = earlier.map Attempt.type ++ last.type :: rest := by
  rw [(load_eq disk types store).2]
  induction types generalizing store with
  | nil => exact .inl ⟨rfl, rfl⟩
  | cons type rest ih =>
    rw [(addTypes_cons ⟨disk, type, store⟩ rest).2, attempts]
    cases ends : (⟨disk, type, store⟩ : Attempt).ends with
    | true =>
      obtain ⟨error, failed, other⟩ := Attempt.error_of_ends ends
      exact .inr ⟨error, [], _, rest, failed, other, rfl, failed, rfl⟩
    | false =>
      rcases ih (⟨disk, type, store⟩ : Attempt).after with
        ⟨done, all⟩ | ⟨error, earlier, last, later, failed, other, tried, reason, split⟩
      · exact .inl ⟨done, congrArg (type :: ·) all⟩
      · refine .inr ⟨error, ⟨disk, type, store⟩ :: earlier, last, later, failed, other, ?_, reason,
          congrArg (type :: ·) split⟩
        exact congrArg (_ :: ·) tried

def loads (store : BodyStore) (calls : List (Disk × List CompiledType)) : BodyStore :=
  calls.foldl (fun store call => (store.load call.1 call.2).1) store

def history : List (Disk × List CompiledType) → BodyStore → List Attempt
  | [], _ => []
  | (disk, types) :: calls, store =>
    store.attempts disk types ++ history calls (store.load disk types).1

theorem Reflects.loads (calls : List (Disk × List CompiledType))
    (reflects : store.Reflects declarations) :
    (store.loads calls).Reflects
      (declarations ++ (history calls store).flatMap Attempt.declarations) := by
  unfold BodyStore.loads
  induction calls generalizing store declarations with
  | nil =>
    rw [history, List.flatMap_nil, List.append_nil]
    exact reflects
  | cons call calls ih =>
    obtain ⟨disk, types⟩ := call
    have next := reflects.addTypes disk types
    rw [← (load_eq disk types store).1] at next
    rw [List.foldl_cons, history, List.flatMap_append, ← List.append_assoc]
    exact ih next

/-- In any number of calls on a new store, each identifier gets the listing and the info of the
first declaration with code among the types that were stored, or of the last one if none has code. A
type that cannot be stored changes neither listings nor infos nor the count of bodies found in
sources, and only an error other than malformed code keeps the types after it from being tried. -/
theorem loads_decisive (parser : Java.Parser) (locator : SourceLocator) (prefixes : List String)
    (calls : List (Disk × List CompiledType)) :
    (∀ id, ComesFrom ((loads { parser, locator, prefixes } calls).listings.get? id)
      ((loads { parser, locator, prefixes } calls).infos.get? id)
      (decisive id ((history calls { parser, locator, prefixes }).flatMap Attempt.declarations))) ∧
    (∀ attempt : Attempt, attempt.error ≠ none → attempt.after.listings = attempt.before.listings ∧
      attempt.after.infos = attempt.before.infos ∧
      attempt.after.sourceHits = attempt.before.sourceHits) ∧
    ∀ (store : BodyStore) (disk : Disk) (types : List CompiledType),
      (store.load disk types).2.2 = none ∧ (store.attempts disk types).map Attempt.type = types ∨
      ∃ error earlier last rest, (store.load disk types).2.2 = some error ∧
        (∀ e, error ≠ .decode (.format e)) ∧ store.attempts disk types = earlier ++ [last] ∧
        last.error = some error ∧ types = earlier.map Attempt.type ++ last.type :: rest := by
  have start : Reflects { parser, locator, prefixes } [] := fun _ => ⟨rfl, rfl⟩
  refine ⟨start.loads calls, ?_, fun store disk types => attempts_types disk types store⟩
  intro attempt failed
  rcases attempt.cases with ⟨_, _, unchanged⟩ | ⟨_, _, stored, _⟩
  · exact unchanged
  · exact absurd stored failed

/-- An abstract declaration of `A.a` in a first call; in a second one a type that cannot be stored,
which has code for it, and a type that can. -/
def overloadCalls : List (Disk × List CompiledType) :=
  [({}, [{ name := "A", path := "I.class", access := 1537, superName := none, interfaces := []
           methods := [{ name := "a", descriptor := "(J)V", access := 1025 }] }]),
   ({}, [brokenType, overloadedType])]

theorem loads_decisive_overloads :
    (history overloadCalls bareStore).map (fun attempt => attempt.error.isSome) =
    [false, true, false] ∧
    ∃ text info, (loads bareStore overloadCalls).listings.get? "A.a" = some text ∧
      (loads bareStore overloadCalls).infos.get? "A.a" = some info ∧ info.descriptor = "()V" := by
  refine ⟨by decide +kernel, ?_⟩
  have counts :
      (decisive "A.a" ((history overloadCalls bareStore).flatMap Attempt.declarations)).map
      (fun d => d.method.descriptor) = some "()V" := by
    decide +kernel
  obtain ⟨d, counted, descriptor⟩ := Option.map_eq_some_iff.mp counts
  have entry := (loads_decisive .bare {} MethodId.platformPrefixes overloadCalls).1 "A.a"
  rw [← bareStore, counted] at entry
  obtain ⟨text, found, _, _, listed, known⟩ := entry
  exact ⟨text, d.info found text, listed, known, descriptor⟩

end BodyStore

end Project

end CallAtlas
