import CallAtlas.MethodId
import Mathlib.Data.List.TakeWhile

/-! The parts of a method identifier: what stands before its last dot and what stands after it. The
identifier and its parts determine each other. -/

namespace CallAtlas

namespace Text

theorem reverse_ne_of_notMem {c : Char} {t : List Char} (absent : c ∉ t) :
    ∀ x ∈ t.reverse, (x != c) = true := by
  intro x member
  have ne : x ≠ c := by
    rintro rfl
    exact absent (List.mem_reverse.mp member)
  simpa using ne

theorem afterLast_append (c : Char) (s t : List Char) (absent : c ∉ t) :
    afterLast c (s ++ c :: t) = t := by
  rw [afterLast, List.reverse_append, List.reverse_cons, List.append_assoc,
    List.takeWhile_append_of_pos (reverse_ne_of_notMem absent)]
  simp

theorem beforeLast_append (c : Char) (s t : List Char) (absent : c ∉ t) :
    beforeLast c (s ++ c :: t) = s := by
  rw [beforeLast, List.reverse_append, List.reverse_cons, List.append_assoc,
    List.dropWhile_append_of_pos (reverse_ne_of_notMem absent)]
  simp

theorem notMem_afterLast (c : Char) (s : List Char) : c ∉ afterLast c s := by
  intro member
  have passed := List.mem_takeWhile_imp (List.mem_reverse.mp member)
  simp at passed

theorem beforeLast_append_afterLast {c : Char} {s : List Char} (present : c ∈ s) :
    beforeLast c s ++ c :: afterLast c s = s := by
  have parts := List.takeWhile_append_dropWhile (p := (· != c)) (l := s.reverse)
  have stopped : s.reverse.dropWhile (· != c) ≠ [] := by
    intro none
    have passed := List.dropWhile_eq_nil_iff.mp none c (List.mem_reverse.mpr present)
    simp at passed
  obtain ⟨d, rest, found⟩ := List.exists_cons_of_ne_nil stopped
  have stop : d = c := by
    have head := List.head_dropWhile_not (· != c) stopped
    simpa [found] using head
  subst stop
  rw [found] at parts
  have whole := congrArg List.reverse parts
  rw [List.reverse_append, List.reverse_cons, List.reverse_reverse] at whole
  simpa [beforeLast, afterLast, found] using whole

theorem notMem_afterLast_of_notMem {c x : Char} {s : List Char} (absent : x ∉ s) :
    x ∉ afterLast c s := by
  intro present
  have kept := (List.takeWhile_prefix _).subset (List.mem_reverse.mp present)
  exact absent (List.mem_reverse.mp kept)

theorem notMem_beforeLast_of_notMem {c x : Char} {s : List Char} (absent : x ∉ s) :
    x ∉ beforeLast c s := by
  intro present
  have kept := (List.dropWhile_suffix _).subset (List.mem_of_mem_drop (List.mem_reverse.mp present))
  exact absent (List.mem_reverse.mp kept)

theorem map_of_fixed {f : Char → Char} {s : List Char} (fixed : ∀ c ∈ s, f c = c) :
    s.map f = s := by
  rw [List.map_congr_left fixed, List.map_id']

end Text

namespace MethodId

theorem owner_append (first last : String) (absent : '.' ∉ last.toList) :
    owner (first ++ "." ++ last) = first := by
  have chars : (first ++ "." ++ last).toList = first.toList ++ '.' :: last.toList := by simp
  rw [owner, packageName, chars, Text.beforeLast_append _ _ _ absent, String.ofList_toList]

theorem member_append (first last : String) (absent : '.' ∉ last.toList) :
    member (first ++ "." ++ last) = last := by
  have chars : (first ++ "." ++ last).toList = first.toList ++ '.' :: last.toList := by simp
  rw [member, simpleName, chars, Text.afterLast_append _ _ _ absent, String.ofList_toList]

theorem notMem_member (id : MethodId) : '.' ∉ (member id).toList := by
  rw [member, simpleName, String.toList_ofList]
  exact Text.notMem_afterLast '.' id.toList

theorem owner_append_member {id : MethodId} (present : '.' ∈ id.toList) :
    owner id ++ "." ++ member id = id := by
  apply String.toList_inj.mp
  have whole := Text.beforeLast_append_afterLast present
  simpa [owner, member, packageName, simpleName] using whole

theorem owner_of_notMem {id : MethodId} (absent : '.' ∉ id.toList) : owner id = "" := by
  have passed := List.dropWhile_eq_nil_iff.mpr (Text.reverse_ne_of_notMem absent)
  rw [owner, packageName, Text.beforeLast, passed]
  rfl

theorem member_of_notMem {id : MethodId} (absent : '.' ∉ id.toList) : member id = id := by
  have passed := List.takeWhile_eq_self_iff.mpr (Text.reverse_ne_of_notMem absent)
  rw [member, simpleName, Text.afterLast, passed, List.reverse_reverse, String.ofList_toList]

/-- What stands before the last dot of an identifier and after it. Without a dot there is no
owner. -/
inductive Splits (id : MethodId) (owner member : String) : Prop where
  | dotted (whole : id = owner ++ "." ++ member) (last : '.' ∉ member.toList)
  | bare (absent : '.' ∉ id.toList) (none : owner = "") (all : member = id)

theorem splits_iff {id : MethodId} {first last : String} :
    Splits id first last ↔ first = owner id ∧ last = member id := by
  constructor
  · intro splits
    cases splits with
    | dotted whole last => simp [whole, owner_append _ _ last, member_append _ _ last]
    | bare absent none all => simp [none, all, owner_of_notMem absent, member_of_notMem absent]
  · rintro ⟨rfl, rfl⟩
    by_cases present : '.' ∈ id.toList
    · exact .dotted (owner_append_member present).symm (notMem_member id)
    · exact .bare present (owner_of_notMem present) (member_of_notMem present)

theorem dot_mem_ofOwner (type name : String) : '.' ∈ (ofOwner type name).toList := by
  simp [ofOwner]

theorem ofOwner_inj {owner first second : String} : ofOwner owner first = ofOwner owner second ↔
    first = second := by
  constructor
  · intro same
    apply String.toList_inj.mp
    have chars := congrArg String.toList same
    simpa [ofOwner] using chars
  · intro same
    rw [same]

theorem dotted_of_notMem {name : String} (absent : '/' ∉ name.toList) : dotted name = name := by
  have kept : ∀ c ∈ name.toList, (if c = '/' then '.' else c) = c := by
    intro c member
    have apart : c ≠ '/' := fun same => absent (same ▸ member)
    rw [if_neg apart]
  rw [dotted, Text.map_of_fixed kept, String.ofList_toList]

theorem slash_notMem_dotted (name : String) : '/' ∉ (dotted name).toList := by
  rw [dotted, String.toList_ofList]
  intro member
  obtain ⟨c, _, slash⟩ := List.mem_map.mp member
  split at slash
  · cases slash
  · rename_i apart
    exact apart slash

/-- Internal names have no dots, so nothing is lost when their slashes become dots. -/
theorem dotted_inj {first second : String} (plain : '.' ∉ first.toList)
    (plain' : '.' ∉ second.toList) :
    dotted first = dotted second ↔ first = second := by
  constructor
  · intro same
    have undone {name : String} (absent : '.' ∉ name.toList) :
        (dotted name).toList.map (fun c => if c = '.' then '/' else c) = name.toList := by
      rw [dotted, String.toList_ofList, List.map_map]
      apply Text.map_of_fixed
      intro c member
      have apart : c ≠ '.' := fun same => absent (same ▸ member)
      by_cases slash : c = '/'
      · simp [slash]
      · simp [slash, apart]
    apply String.toList_inj.mp
    rw [← undone plain, ← undone plain', same]
  · intro same
    rw [same]

theorem owner_ofOwner {type name : String} (plain : '.' ∉ name.toList) :
    owner (ofOwner type name) = dotted type :=
  owner_append (dotted type) name plain

theorem member_ofOwner_iff {type name : String} : member (ofOwner type name) = name ↔
    '.' ∉ name.toList := by
  constructor
  · intro same
    rw [← same]
    exact notMem_member _
  · intro plain
    exact member_append (dotted type) name plain

/-- Splitting undoes joining just for names without a dot, so identifiers tell methods apart, and
joining undoes splitting. -/
theorem split_inverts_ofOwner :
    (∀ type name : String,
      (owner (ofOwner type name), member (ofOwner type name)) = (dotted type, name) ↔
      '.' ∉ name.toList) ∧
      (∀ type name type' name' : String, '.' ∉ type.toList → '.' ∉ name.toList →
        '.' ∉ type'.toList → '.' ∉ name'.toList →
        (ofOwner type name = ofOwner type' name' ↔ type = type' ∧ name = name')) ∧
    ∀ id : MethodId, '.' ∈ id.toList → '/' ∉ id.toList →
      ofOwner (owner id) (member id) = id ∧ '.' ∉ (member id).toList := by
  refine ⟨?_, ?_, ?_⟩
  · intro type name
    rw [Prod.mk.injEq, member_ofOwner_iff]
    exact and_iff_right_of_imp owner_ofOwner
  · intro type name type' name' plainType plainName plainType' plainName'
    constructor
    · intro same
      have types : dotted type = dotted type' := by
        rw [← owner_ofOwner plainName, ← owner_ofOwner plainName', same]
      have names : name = name' := by
        rw [← member_ofOwner_iff.mpr plainName, ← member_ofOwner_iff.mpr plainName', same]
      exact ⟨(dotted_inj plainType plainType').mp types, names⟩
    · rintro ⟨rfl, rfl⟩
      rfl
  · intro id present absent
    have plain : '/' ∉ (owner id).toList := by
      rw [owner, packageName, String.toList_ofList]
      exact Text.notMem_beforeLast_of_notMem absent
    refine ⟨?_, notMem_member id⟩
    rw [ofOwner, dotted_of_notMem plain, owner_append_member present]

theorem split_inverts_constructor :
    '.' ∉ "<init>".toList ∧ '.' ∉ "com/acme/Outer$Inner".toList ∧
      (owner (ofOwner "com/acme/Outer$Inner" "<init>"),
        member (ofOwner "com/acme/Outer$Inner" "<init>")) =
        ("com.acme.Outer$Inner", "<init>") ∧
      ofOwner "com/acme/Outer$Inner" "<init>" ≠ ofOwner "com/acme/Outer" "Inner" ∧
      ofOwner "com.acme.Outer$Inner" "<init>" = "com.acme.Outer$Inner.<init>" := by
  obtain ⟨split, apart, joined⟩ := split_inverts_ofOwner
  refine ⟨by decide, by decide, ?_, ?_, ?_⟩
  · exact (split _ _).mpr (by decide)
  · intro same
    have types := (apart _ _ _ _ (by decide) (by decide) (by decide) (by decide)).mp same
    exact absurd types.2 (by decide)
  · exact (joined "com.acme.Outer$Inner.<init>" (by decide) (by decide)).1

end MethodId

end CallAtlas
