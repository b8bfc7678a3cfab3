import CallAtlas.Proofs.EndpointRegistration
import Mathlib.Data.List.Induction

/-!
Which endpoint the annotations of a type and of a method stand for: the last mapping annotation
decides on the verb, the last one that has a text on the path.
-/

namespace CallAtlas

open ClassFile

namespace ClassFile.AnnotationUse

def Gives (use : AnnotationUse) (name : String) (value : Element) : Prop :=
  use.values.get? name = some value ∨ ∃ rest, use.values.get? name = some (.array (value :: rest))

def GivesText (use : AnnotationUse) (name : String) (text : Text.CodeText) : Prop :=
  (∃ value, use.Gives name (.text value) ∧ text = value) ∨ ∃ unit, use.Gives name (.char unit) ∧
    text = ⟨[unit]⟩

def GivesConstant (use : AnnotationUse) (name constant : String) : Prop :=
  ∃ type, use.Gives name (.enum type constant)

def Maps (use : AnnotationUse) (own : String) : Prop := (use.simpleName, own) ∈ mappingVerbs

def SaysVerb (use : AnnotationUse) (verb : String) : Prop :=
  ∃ own, use.Maps own ∧
    (use.GivesConstant "method" verb ∨ (∀ other, ¬ use.GivesConstant "method" other) ∧ verb = own)

def SaysPath (use : AnnotationUse) (path : Text.CodeText) : Prop :=
  (∃ own, use.Maps own) ∧
    (use.GivesText "path" path ∨ (∀ other, ¬ use.GivesText "path" other) ∧
      use.GivesText "value" path)

theorem maps_iff (use : AnnotationUse) (own : String) : use.Maps own ↔
    mappingVerbs.get? use.simpleName = some own := by
  constructor
  · exact Table.get?_of_mem (by decide)
  · exact Table.mem_of_get?

/-- What is looked for is no array, so that it stands under the name or is the first item there. -/
theorem bind_firstItem_eq_some {β : Type} {view : Element → Option β}
    (single : ∀ items, view (.array items) = none)
    (use : AnnotationUse) (name : String) (result : β) :
    ((use.values.get? name).bind firstItem).bind view = some result ↔
      ∃ value, use.Gives name value ∧ view value = some result := by
  unfold Gives
  cases use.values.get? name with
  | none => simp
  | some element =>
    constructor
    · intro found
      obtain ⟨value, first, shown⟩ := Option.bind_eq_some_iff.mp found
      refine ⟨value, ?_, shown⟩
      cases element with
      | array items =>
        obtain ⟨rest, rfl⟩ := List.head?_eq_some_iff.mp first
        exact .inr ⟨rest, rfl⟩
      | _ => exact .inl first
    · intro given
      obtain ⟨value, here | ⟨rest, first⟩, shown⟩ := given
      · cases here
        cases element with
        | array items => cases (single items).symm.trans shown
        | _ => exact shown
      · cases first
        exact shown

theorem elementText?_eq_some (use : AnnotationUse) (name : String) (text : Text.CodeText) :
    elementText? use name = some text ↔ use.GivesText name text := by
  unfold elementText? GivesText
  rw [bind_firstItem_eq_some fun _ => rfl]
  constructor
  · intro found
    obtain ⟨value, given, shown⟩ := found
    cases value with
    | text value => exact .inl ⟨value, given, (Option.some.inj shown).symm⟩
    | char unit => exact .inr ⟨unit, given, (Option.some.inj shown).symm⟩
    | _ => cases shown
  · intro given
    rcases given with ⟨value, given, rfl⟩ | ⟨unit, given, rfl⟩
    · exact ⟨_, given, rfl⟩
    · exact ⟨_, given, rfl⟩

theorem explicitVerb?_eq_some (use : AnnotationUse) (verb : String) :
    explicitVerb? use = some verb ↔ use.GivesConstant "method" verb := by
  unfold explicitVerb? GivesConstant
  rw [bind_firstItem_eq_some fun _ => rfl]
  constructor
  · intro found
    obtain ⟨value, given, shown⟩ := found
    cases value with
    | enum type constant =>
      cases shown
      exact ⟨type, given⟩
    | _ => cases shown
  · intro given
    obtain ⟨type, given⟩ := given
    exact ⟨_, given, rfl⟩

theorem pathOf?_eq_some (use : AnnotationUse) (path : Text.CodeText) :
    pathOf? use = some path ↔
      use.GivesText "path" path ∨ (∀ other, ¬ use.GivesText "path" other) ∧
      use.GivesText "value" path := by
  simp only [pathOf?, Option.or_eq_some_iff, Option.eq_none_iff_forall_ne_some, ne_eq,
    elementText?_eq_some]

theorem not_maps (use : AnnotationUse) : (∀ own, ¬ use.Maps own) ↔
    mappingVerbs.get? use.simpleName = none := by
  simp only [maps_iff, Option.eq_none_iff_forall_ne_some, ne_eq]

theorem saysVerb_iff {use : AnnotationUse} {own : String} (maps : use.Maps own) (verb : String) :
    use.SaysVerb verb ↔ (explicitVerb? use).getD own = verb := by
  have unique (other : String) : use.Maps other ↔ own = other := by
    rw [maps_iff, (maps_iff use own).mp maps, Option.some.injEq]
  simp only [SaysVerb, unique, exists_eq_left', ← explicitVerb?_eq_some]
  cases explicitVerb? use with
  | none => simp [eq_comm]
  | some constant => simp

theorem saysPath_iff {use : AnnotationUse} {own : String} (maps : use.Maps own)
    (path : Text.CodeText) :
    use.SaysPath path ↔ pathOf? use = some path := by
  rw [SaysPath, pathOf?_eq_some]
  exact and_iff_right ⟨own, maps⟩

end ClassFile.AnnotationUse

section LastSays

variable {β : Type} {tells : AnnotationUse → β → Prop}

def LastSays (tells : AnnotationUse → β → Prop) (uses : List AnnotationUse) (value : β) : Prop :=
  ∃ before use after, uses = before ++ use :: after ∧ tells use value ∧
    ∀ later ∈ after, ∀ other, ¬ tells later other

theorem not_lastSays_nil (value : β) : ¬ LastSays tells [] value := by
  intro last
  obtain ⟨before, use, after, split, _⟩ := last
  cases before <;> cases split

theorem lastSays_concat (uses : List AnnotationUse) (use : AnnotationUse) (value : β) :
    LastSays tells (uses ++ [use]) value ↔ tells use value ∨ (∀ other, ¬ tells use other) ∧
    LastSays tells uses value := by
  constructor
  · intro last
    obtain ⟨before, speaker, after, split, said, silent⟩ := last
    rcases List.eq_nil_or_concat after with rfl | ⟨after, end', rfl⟩
    · cases (List.append_inj' split rfl).2
      exact .inl said
    · rw [List.concat_eq_append, ← List.cons_append, ← List.append_assoc] at split
      obtain ⟨rfl, same⟩ := List.append_inj' split rfl
      cases same
      rw [List.concat_eq_append, List.forall_mem_append, List.forall_mem_singleton] at silent
      exact .inr ⟨silent.2, before, speaker, after, rfl, said, silent.1⟩
  · intro cases
    rcases cases with said | ⟨quiet, before, speaker, after, rfl, said, silent⟩
    · exact ⟨uses, use, [], rfl, said, by simp⟩
    · refine ⟨before, speaker, after ++ [use], by simp, said, ?_⟩
      rw [List.forall_mem_append, List.forall_mem_singleton]
      exact ⟨silent, quiet⟩

end LastSays

def DecidePath (uses : List AnnotationUse) (path : Text.CodeText) : Prop :=
  LastSays AnnotationUse.SaysPath uses path ∨
  (∀ use ∈ uses, ∀ other, ¬ use.SaysPath other) ∧ path = ""

namespace Mapping

theorem ofUses_concat (uses : List AnnotationUse) (use : AnnotationUse) :
    ofUses (uses ++ [use]) = update (ofUses uses) use := by
  rw [ofUses, List.foldl_append, List.foldl_cons, List.foldl_nil, ofUses]

theorem update_of_maps {use : AnnotationUse} {own : String} (maps : use.Maps own)
    (mapping : Option Mapping) :
    update mapping use =
      some ⟨(explicitVerb? use).getD own,
        (pathOf? use).getD ((mapping.map Mapping.path).getD "")⟩ := by
  rw [update, (use.maps_iff own).mp maps]

theorem update_of_not_maps {use : AnnotationUse} (other : ∀ own, ¬ use.Maps own)
    (mapping : Option Mapping) :
    update mapping use = mapping := by
  rw [update, use.not_maps.mp other]

theorem isSome_ofUses (uses : List AnnotationUse) :
    (ofUses uses).isSome = true ↔ ∃ use ∈ uses, ∃ own, use.Maps own := by
  induction uses using List.reverseRecOn with
  | nil => simp [ofUses]
  | append_singleton uses use ih =>
    simp only [ofUses_concat, List.mem_append, List.mem_singleton, or_and_right, exists_or,
      exists_eq_left]
    by_cases maps : ∃ own, use.Maps own
    · obtain ⟨own, maps⟩ := maps
      rw [update_of_maps maps]
      exact iff_of_true rfl (.inr ⟨own, maps⟩)
    · rw [update_of_not_maps (not_exists.mp maps), ih]
      exact (or_iff_left maps).symm

theorem verb_ofUses (uses : List AnnotationUse) (verb : String) :
    (ofUses uses).map Mapping.verb = some verb ↔ LastSays AnnotationUse.SaysVerb uses verb := by
  induction uses using List.reverseRecOn with
  | nil => exact iff_of_false nofun (not_lastSays_nil verb)
  | append_singleton uses use ih =>
    rw [ofUses_concat, lastSays_concat]
    by_cases maps : ∃ own, use.Maps own
    · obtain ⟨own, maps⟩ := maps
      rw [update_of_maps maps, Option.map_some, Option.some.injEq, use.saysVerb_iff maps]
      have speaks : ¬ ∀ other, ¬ use.SaysVerb other :=
        fun silent => silent _ ((use.saysVerb_iff maps _).mpr rfl)
      exact (or_iff_left fun both => speaks both.1).symm
    · have silent (other : String) : ¬ use.SaysVerb other :=
        fun said => maps (said.imp fun _ both => both.1)
      rw [update_of_not_maps (not_exists.mp maps), ih]
      exact ((or_iff_right (silent verb)).trans (and_iff_right silent)).symm

theorem path_ofUses (uses : List AnnotationUse) (path : Text.CodeText) :
    ((ofUses uses).map Mapping.path).getD "" = path ↔ DecidePath uses path := by
  unfold DecidePath
  induction uses using List.reverseRecOn with
  | nil => simp [ofUses, not_lastSays_nil, eq_comm]
  | append_singleton uses use ih =>
    rw [ofUses_concat, lastSays_concat, List.forall_mem_append, List.forall_mem_singleton]
    by_cases speaks : ∃ said, use.SaysPath said
    · obtain ⟨said, here⟩ := speaks
      obtain ⟨own, maps⟩ := here.1
      have found := (use.saysPath_iff maps said).mp here
      simp only [update_of_maps maps, use.saysPath_iff maps, found, Option.map_some,
        Option.getD_some, Option.some.injEq]
      constructor
      · exact fun same => .inl (.inl same)
      · intro decided
        rcases decided with (same | ⟨silent, _⟩) | ⟨⟨_, silent⟩, _⟩
        · exact same
        · exact absurd rfl (silent said)
        · exact absurd rfl (silent said)
    · have silent := not_exists.mp speaks
      have same : ((update (ofUses uses) use).map Mapping.path).getD "" =
          ((ofUses uses).map Mapping.path).getD "" := by
        by_cases maps : ∃ own, use.Maps own
        · obtain ⟨own, maps⟩ := maps
          have unfound : pathOf? use = none := by
            apply Option.eq_none_iff_forall_ne_some.mpr
            intro other found
            exact silent other ((use.saysPath_iff maps other).mpr found)
          rw [update_of_maps maps, unfound]
          rfl
        · rw [update_of_not_maps (not_exists.mp maps)]
      rw [same, ih]
      simp [silent]

end Mapping

def IsController (type : CompiledType) : Prop :=
  ∃ use ∈ type.annotations, "Controller".toList <:+ use.simpleName.toList

theorem isController_iff (type : CompiledType) : type.annotations.any isControllerUse = true ↔
    IsController type := by
  simp only [List.any_eq_true, isControllerUse, List.isSuffixOf_iff_suffix, IsController]

structure Declares (type : CompiledType) (method : CompiledMethod)
    (endpoint : Endpoint) : Prop where
  controller : IsController type
  verb : LastSays AnnotationUse.SaysVerb method.annotations endpoint.verb
  path : DecidePath method.annotations endpoint.path
  entry : endpoint.entry = MethodId.ofOwner type.name method.name

theorem endpointOf_eq_some (type : CompiledType) (method : CompiledMethod) (endpoint : Endpoint) :
    endpointOf type method = some endpoint ↔ Declares type method endpoint := by
  unfold endpointOf
  constructor
  · intro found
    obtain ⟨mapping, mapped, rfl⟩ := Option.map_eq_some_iff.mp found
    rw [Option.ite_none_right_eq_some] at mapped
    obtain ⟨controller, mapped⟩ := mapped
    refine ⟨(isController_iff type).mp controller, ?_, ?_, rfl⟩
    · rw [← Mapping.verb_ofUses, mapped]
      rfl
    · rw [← Mapping.path_ofUses, mapped]
      rfl
  · intro declares
    obtain ⟨mapping, mapped, verb⟩ :=
      Option.map_eq_some_iff.mp ((Mapping.verb_ofUses _ _).mpr declares.verb)
    have path := (Mapping.path_ofUses _ _).mpr declares.path
    rw [mapped] at path
    rw [if_pos ((isController_iff type).mpr declares.controller), mapped, Option.map_some,
      ← declares.entry, verb]
    exact congrArg (fun path => some ({ endpoint with path } : Endpoint)) path

theorem isSome_endpointOf (type : CompiledType) (method : CompiledMethod) :
    (endpointOf type method).isSome = true ↔
      IsController type ∧ ∃ use ∈ method.annotations, ∃ own, use.Maps own := by
  rw [endpointOf, Option.isSome_map, ← isController_iff, ← Mapping.isSome_ofUses]
  cases type.annotations.any isControllerUse <;> simp

end CallAtlas
