import CallAtlas.Graph.Basic

/-! What is in a table after a change, and in a list after insertions. -/

namespace CallAtlas

section Lists

variable {α : Type} [DecidableEq α]

@[simp] theorem mem_insertNew (x y : α) (xs : List α) : y ∈ insertNew x xs ↔ y = x ∨ y ∈ xs := by
  unfold insertNew
  split
  · rename_i present
    constructor
    · exact .inr
    · rintro (rfl | member)
      · exact present
      · exact member
  · simp [or_comm]

theorem mem_foldl_insertNew (items : List α) (xs : List α) (y : α) :
    y ∈ items.foldl (fun row item => insertNew item row) xs ↔ y ∈ xs ∨ y ∈ items := by
  induction items generalizing xs with
  | nil => simp
  | cons item items ih =>
    rw [List.foldl_cons, ih, mem_insertNew, List.mem_cons]
    constructor
    · rintro ((here | old) | later)
      · exact .inr (.inl here)
      · exact .inl old
      · exact .inr (.inr later)
    · rintro (old | here | later)
      · exact .inl (.inr old)
      · exact .inl (.inl here)
      · exact .inr later

end Lists

namespace Table

variable {κ ν : Type} [DecidableEq κ]

theorem get?_modify (key k : κ) (start : ν) (change : ν → ν) (table : Table κ ν) :
    (table.modify k start change).get? key =
      if k = key then some (change ((table.get? k).getD start)) else table.get? key := by
  induction table with
  | nil => simp [modify, get?]
  | cons entry rest ih =>
    obtain ⟨first, value⟩ := entry
    by_cases here : first = k
    · subst here
      by_cases same : first = key <;> simp [modify, get?, same]
    · by_cases same : first = key
      · subst same
        simp [modify, get?, here, Ne.symm here]
      · simp only [modify, get?, here, same, ↓reduceIte, ih]

theorem mem_of_get? {table : Table κ ν} {key : κ} {value : ν}
    (found : table.get? key = some value) :
    (key, value) ∈ table := by
  induction table with
  | nil => cases found
  | cons entry rest ih =>
    obtain ⟨first, old⟩ := entry
    rw [get?] at found
    split at found
    · rename_i here
      cases found
      exact here ▸ List.mem_cons_self
    · exact List.mem_cons_of_mem _ (ih found)

theorem get?_put (key k : κ) (value : ν) (table : Table κ ν) :
    (table.put k value).get? key = if k = key then some value else table.get? key := by
  induction table with
  | nil => rfl
  | cons entry rest ih =>
    obtain ⟨first, old⟩ := entry
    by_cases here : first = k
    · subst here
      by_cases same : first = key <;> simp [put, get?, same]
    · by_cases same : first = key
      · subst same
        simp [put, get?, here, Ne.symm here]
      · simp only [put, get?, here, same, ↓reduceIte, ih]

theorem isSome_get?_merge (key : κ) (table more : Table κ ν)
    (present : (table.get? key).isSome = true ∨ (more.get? key).isSome = true) :
    ((table.merge more).get? key).isSome = true := by
  unfold merge
  induction more generalizing table with
  | nil =>
    rcases present with old | none
    · exact old
    · cases none
  | cons entry rest ih =>
    obtain ⟨first, value⟩ := entry
    apply ih
    rw [get?_put]
    by_cases here : first = key
    · rw [if_pos here]
      exact .inl rfl
    · rw [if_neg here]
      rw [get?, if_neg here] at present
      exact present

theorem mem_keys_modify (table : Table κ ν) (key : κ) (start : ν) (change : ν → ν) (k : κ) :
    k ∈ (table.modify key start change).keys ↔ k = key ∨ k ∈ table.keys := by
  induction table with
  | nil => simp [modify, keys]
  | cons entry rest ih =>
    obtain ⟨first, value⟩ := entry
    simp only [keys, List.map_cons, List.mem_cons] at ih ⊢
    rw [modify]
    split
    · rename_i here
      simp [here]
    · simp only [List.map_cons, List.mem_cons, ih]
      exact or_left_comm

theorem nodup_keys_modify {table : Table κ ν} (distinct : table.keys.Nodup) (key : κ) (start : ν)
    (change : ν → ν) :
    (table.modify key start change).keys.Nodup := by
  induction table with
  | nil => simp [modify, keys]
  | cons entry rest ih =>
    obtain ⟨first, value⟩ := entry
    obtain ⟨fresh, later⟩ := List.nodup_cons.mp distinct
    rw [modify]
    split
    · exact List.nodup_cons.mpr ⟨fresh, later⟩
    · rename_i apart
      refine List.nodup_cons.mpr ⟨?_, ih later⟩
      intro member
      rcases (mem_keys_modify rest key start change first).mp member with here | old
      · exact apart here
      · exact fresh old

theorem get?_of_mem {table : Table κ ν} (distinct : table.keys.Nodup) {key : κ} {value : ν}
    (member : (key, value) ∈ table) :
    table.get? key = some value := by
  induction table with
  | nil => cases member
  | cons entry rest ih =>
    obtain ⟨first, old⟩ := entry
    obtain ⟨fresh, later⟩ := List.nodup_cons.mp distinct
    rw [get?]
    rcases List.mem_cons.mp member with here | there
    · cases here
      rw [if_pos rfl]
    · have apart : first ≠ key := by
        intro same
        subst same
        exact fresh (List.mem_map.mpr ⟨_, there, rfl⟩)
      rw [if_neg apart]
      exact ih later there

theorem put_eq_modify (key : κ) (value : ν) (table : Table κ ν) :
    table.put key value = table.modify key value fun _ => value := by
  induction table with
  | nil => rfl
  | cons entry rest ih => rw [put, modify, ih]

theorem nodup_keys_put {table : Table κ ν} (distinct : table.keys.Nodup) (key : κ) (value : ν) :
    (table.put key value).keys.Nodup := by
  rw [put_eq_modify]
  exact nodup_keys_modify distinct _ _ _

theorem get?_merge (key : κ) (table : Table κ ν) {more : Table κ ν} (distinct : more.keys.Nodup) :
    (table.merge more).get? key = (more.get? key).or (table.get? key) := by
  unfold merge
  induction more generalizing table with
  | nil => rfl
  | cons entry rest ih =>
    obtain ⟨first, value⟩ := entry
    obtain ⟨fresh, later⟩ := List.nodup_cons.mp distinct
    rw [List.foldl_cons, ih _ later, get?_put, get?]
    by_cases here : first = key
    · subst here
      have absent : get? first rest = none := by
        cases found : get? first rest with
        | none => rfl
        | some old => exact (fresh (List.mem_map.mpr ⟨_, mem_of_get? found, rfl⟩)).elim
      rw [if_pos rfl, if_pos rfl, absent]
      rfl
    · rw [if_neg here, if_neg here]

theorem put_absent {key : κ} {table : Table κ ν} (absent : table.get? key = none) (value : ν) :
    table.put key value = table ++ [(key, value)] := by
  induction table with
  | nil => rfl
  | cons entry rest ih =>
    rw [get?] at absent
    split at absent
    · cases absent
    · rename_i apart
      rw [put, if_neg apart, ih absent, List.cons_append]

theorem put_present {key : κ} {old : ν} {table : Table κ ν}
    (there : table.get? key = some old) (value : ν) :
    ∃ before after, table = before ++ (key, old) :: after ∧
      table.put key value = before ++ (key, value) :: after := by
  induction table with
  | nil => cases there
  | cons entry rest ih =>
    rw [get?] at there
    rw [put]
    split at there
    · rename_i same
      cases there
      subst same
      exact ⟨[], rest, rfl, by rw [if_pos rfl]; rfl⟩
    · rename_i apart
      obtain ⟨before, after, split, changed⟩ := ih there
      exact ⟨entry :: before, after, by rw [split]; rfl, by rw [if_neg apart, changed]; rfl⟩

/-- Each value stands once, under its own name. -/
structure KeyedBy (name : ν → κ) (table : Table κ ν) : Prop where
  distinct : table.keys.Nodup
  own : ∀ entry ∈ table, name entry.2 = entry.1

namespace KeyedBy

variable {name : ν → κ} {table : Table κ ν}

omit [DecidableEq κ] in
theorem empty : KeyedBy name ([] : Table κ ν) := ⟨List.nodup_nil, by simp⟩

theorem put (keyed : KeyedBy name table) {key : κ} {value : ν} (named : name value = key) :
    KeyedBy name (table.put key value) := by
  have distinct := nodup_keys_put keyed.distinct key value
  refine ⟨distinct, ?_⟩
  intro entry member
  have found := get?_of_mem distinct member
  rw [get?_put] at found
  split at found
  · rename_i same
    rw [← Option.some.inj found, named, same]
  · exact keyed.own _ (mem_of_get? found)

theorem merge (keyed : KeyedBy name table) {more : Table κ ν}
    (own : ∀ entry ∈ more, name entry.2 = entry.1) :
    KeyedBy name (table.merge more) := by
  unfold Table.merge
  induction more generalizing table with
  | nil => exact keyed
  | cons entry rest ih =>
    rw [List.forall_mem_cons] at own
    exact ih (keyed.put own.1) own.2

omit [DecidableEq κ] in
theorem names (keyed : KeyedBy name table) : table.values.map name = table.keys := by
  rw [values, keys, List.map_map]
  apply List.map_congr_left
  intro entry member
  exact keyed.own entry member

theorem mem_values_iff (keyed : KeyedBy name table) (value : ν) :
    value ∈ table.values ↔ table.get? (name value) = some value := by
  constructor
  · intro member
    obtain ⟨entry, present, rfl⟩ := List.mem_map.mp member
    rw [keyed.own entry present]
    exact get?_of_mem keyed.distinct present
  · intro found
    exact List.mem_map.mpr ⟨_, mem_of_get? found, rfl⟩

end KeyedBy

end Table

end CallAtlas
