import CallAtlas.Proofs.Tables
import Mathlib.Data.List.Nodup

/-!
Tables of sets: to each key a list that names nothing twice and is not empty. Two of them are the
same if they list the same items under the same keys, in whatever order.
-/

namespace CallAtlas

theorem nodup_insertNew {α : Type} [DecidableEq α] (x : α) {xs : List α} (distinct : xs.Nodup) :
    (insertNew x xs).Nodup := by
  unfold insertNew
  split
  · exact distinct
  · rename_i absent
    exact List.nodup_append.mpr ⟨distinct, List.nodup_singleton x, by grind⟩

theorem nodup_foldl_insertNew {α : Type} [DecidableEq α] (items : List α) {xs : List α}
    (distinct : xs.Nodup) :
    (items.foldl (fun row item => insertNew item row) xs).Nodup := by
  induction items generalizing xs with
  | nil => exact distinct
  | cons item items ih => exact ih (nodup_insertNew item distinct)

theorem foldl_insertNew_of_nodup {α : Type} [DecidableEq α] {xs ys : List α}
    (distinct : (xs ++ ys).Nodup) :
    ys.foldl (fun seen y => insertNew y seen) xs = xs ++ ys := by
  induction ys generalizing xs with
  | nil => simp
  | cons y ys ih =>
    have fresh : y ∉ xs := by
      intro member
      exact (List.disjoint_of_nodup_append distinct) member List.mem_cons_self
    rw [List.foldl_cons, insertNew, if_neg fresh, ih (by simpa using distinct), List.append_assoc,
      List.singleton_append]

theorem foldl_insertNew_of_subset {α : Type} [DecidableEq α] {items xs : List α}
    (present : items ⊆ xs) :
    items.foldl (fun row item => insertNew item row) xs = xs := by
  induction items with
  | nil => rfl
  | cons item items ih =>
    obtain ⟨here, later⟩ := List.cons_subset.mp present
    rw [List.foldl_cons, insertNew, if_pos here, ih later]

theorem distinct_of_nodup {α : Type} [DecidableEq α] {xs : List α} (once : xs.Nodup) :
    distinct xs = xs :=
  foldl_insertNew_of_nodup once

namespace Table

theorem foldl_put_of_nodup {κ ν : Type} [DecidableEq κ] {table more : Table κ ν}
    (once : (keys (table ++ more)).Nodup) :
    more.foldl (fun table pair => put pair.1 pair.2 table) table = table ++ more := by
  induction more generalizing table with
  | nil => simp
  | cons entry more ih =>
    have split : table ++ entry :: more = table ++ [entry] ++ more := by simp
    have fresh : table.get? entry.1 = none := by
      cases found : table.get? entry.1 with
      | none => rfl
      | some value =>
        have twice : entry.1 ∈ keys table := List.mem_map.mpr ⟨_, mem_of_get? found, rfl⟩
        rw [keys, List.map_append] at once
        exact (List.disjoint_of_nodup_append once twice List.mem_cons_self).elim
    rw [split] at once
    rw [List.foldl_cons, put_absent fresh, split]
    exact ih once

theorem ofPairs_of_nodup {κ ν : Type} [DecidableEq κ] {pairs : List (κ × ν)}
    (once : (keys pairs).Nodup) : ofPairs pairs = pairs :=
  foldl_put_of_nodup once

theorem mem_of_mem_put {κ ν : Type} [DecidableEq κ] {table : Table κ ν} {key : κ} {value : ν}
    {entry : κ × ν} (member : entry ∈ table.put key value) : entry = (key, value) ∨
    entry ∈ table := by
  induction table with
  | nil => exact .inl (List.mem_singleton.mp member)
  | cons first rest ih =>
    rw [put] at member
    split at member
    · rename_i here
      rcases List.mem_cons.mp member with same | later
      · exact .inl (here ▸ same)
      · exact .inr (List.mem_cons_of_mem _ later)
    · rcases List.mem_cons.mp member with same | later
      · exact .inr (same ▸ List.mem_cons_self)
      · exact (ih later).imp_right (List.mem_cons_of_mem _)

theorem ofPairs_keys_subset {κ ν : Type} [DecidableEq κ] (pairs : List (κ × ν)) :
    (ofPairs pairs).keys.Nodup ∧ ofPairs pairs ⊆ pairs := by
  suffices all : ∀ table : Table κ ν, table.keys.Nodup →
      (pairs.foldl (fun table pair => put pair.1 pair.2 table) table).keys.Nodup ∧
        pairs.foldl (fun table pair => put pair.1 pair.2 table) table ⊆ table ++ pairs from
    all [] List.nodup_nil
  induction pairs with
  | nil => exact fun table once => ⟨once, by simp⟩
  | cons pair pairs ih =>
    intro table once
    obtain ⟨keys, among⟩ := ih _ (nodup_keys_put once pair.1 pair.2)
    refine ⟨keys, ?_⟩
    intro entry member
    rcases List.mem_append.mp (among member) with old | later
    · rcases mem_of_mem_put old with here | before
      · exact List.mem_append_right table (here ▸ List.mem_cons_self)
      · exact List.mem_append_left _ before
    · exact List.mem_append_right table (List.mem_cons_of_mem _ later)

variable {table other : Table String (List String)} {key item : String}

structure OfSets (table : Table String (List String)) : Prop where
  keys : table.keys.Nodup
  rows : ∀ row ∈ table, row.2.Nodup ∧ row.2 ≠ []

def Lists (table : Table String (List String)) (key item : String) : Prop :=
  ∃ row ∈ table, row.1 = key ∧ item ∈ row.2

/-- The same table, whose rows may stand in another order, and the items of each row as well. -/
structure Relisted (table other : Table String (List String)) : Prop where
  keys : table.keys.Perm other.keys
  rows : ∀ key, Option.Rel List.Perm (table.get? key) (other.get? key)

theorem OfSets.empty : OfSets [] := ⟨List.nodup_nil, by simp⟩

theorem OfSets.insert (sets : table.OfSets) (key item : String) :
    (table.modify key [] (insertNew item)).OfSets := by
  refine ⟨nodup_keys_modify sets.keys key [] (insertNew item), ?_⟩
  rintro ⟨k, items⟩ member
  have found := get?_of_mem (nodup_keys_modify sets.keys key [] (insertNew item)) member
  rw [get?_modify] at found
  have inserted {xs : List String} (distinct : xs.Nodup) : (insertNew item xs).Nodup ∧
      insertNew item xs ≠ [] :=
    ⟨nodup_insertNew item distinct,
      List.ne_nil_of_mem ((mem_insertNew item item xs).mpr (.inl rfl))⟩
  split at found
  · cases found
    cases old : table.get? key with
    | none => exact inserted List.nodup_nil
    | some xs => exact inserted (sets.rows _ (mem_of_get? old)).1
  · exact sets.rows _ (mem_of_get? found)

theorem OfSets.lists_iff (sets : table.OfSets) : table.Lists key item ↔
    item ∈ (table.get? key).getD [] := by
  constructor
  · rintro ⟨⟨k, items⟩, member, rfl, listed⟩
    rw [get?_of_mem sets.keys member]
    exact listed
  · intro listed
    cases found : table.get? key with
    | none =>
      rw [found] at listed
      cases listed
    | some items =>
      rw [found] at listed
      exact ⟨(key, items), mem_of_get? found, rfl, listed⟩

theorem OfSets.mem_keys_iff (sets : table.OfSets) : key ∈ table.keys ↔
    ∃ item, table.Lists key item := by
  constructor
  · intro member
    obtain ⟨row, present, rfl⟩ := List.mem_map.mp member
    obtain ⟨item, listed⟩ := List.exists_mem_of_ne_nil row.2 (sets.rows row present).2
    exact ⟨item, row, present, rfl, listed⟩
  · rintro ⟨item, row, present, rfl, _⟩
    exact List.mem_map_of_mem present

theorem OfSets.relisted (sets : table.OfSets) (others : other.OfSets)
    (same : ∀ key item, table.Lists key item ↔ other.Lists key item) : table.Relisted other := by
  refine ⟨?_, ?_⟩
  · apply (List.perm_ext_iff_of_nodup sets.keys others.keys).mpr
    intro key
    rw [sets.mem_keys_iff, others.mem_keys_iff]
    exact exists_congr (same key)
  · intro key
    have items (item : String) : item ∈ (table.get? key).getD [] ↔
        item ∈ (other.get? key).getD [] := by
      rw [← sets.lists_iff, ← others.lists_iff]
      exact same key item
    cases found : table.get? key with
    | none =>
      cases found' : other.get? key with
      | none => exact .none
      | some ys =>
        obtain ⟨item, listed⟩ := List.exists_mem_of_ne_nil ys (others.rows _ (mem_of_get? found')).2
        rw [found, found'] at items
        cases (items item).mpr listed
    | some xs =>
      have distinct := sets.rows _ (mem_of_get? found)
      cases found' : other.get? key with
      | none =>
        obtain ⟨item, listed⟩ := List.exists_mem_of_ne_nil xs distinct.2
        rw [found, found'] at items
        cases (items item).mp listed
      | some ys =>
        have distinct' := others.rows _ (mem_of_get? found')
        rw [found, found'] at items
        exact .some ((List.perm_ext_iff_of_nodup distinct.1 distinct'.1).mpr items)

theorem Relisted.refl (table : Table String (List String)) : table.Relisted table := by
  refine ⟨List.Perm.refl _, ?_⟩
  intro key
  cases table.get? key with
  | none => exact .none
  | some items => exact .some (List.Perm.refl items)

theorem relisted_of_rows (distinct : table.keys.Nodup) (keys : table.keys.Perm other.keys)
    (rows : ∀ row ∈ table, ∃ items, other.get? row.1 = some items ∧ row.2.Perm items) :
    table.Relisted other := by
  refine ⟨keys, ?_⟩
  intro key
  cases found : table.get? key with
  | some items =>
    obtain ⟨others, there, perm⟩ := rows _ (mem_of_get? found)
    rw [there]
    exact .some perm
  | none =>
    cases found' : other.get? key with
    | none => exact .none
    | some items =>
      have listed : key ∈ table.keys := keys.mem_iff.mpr (List.mem_map_of_mem (mem_of_get? found'))
      obtain ⟨row, present, rfl⟩ := List.mem_map.mp listed
      rw [get?_of_mem distinct present] at found
      cases found

theorem perm_getD_of_rel {found items : Option (List String)}
    (row : Option.Rel List.Perm found items) :
    (found.getD []).Perm (items.getD []) := by
  cases row with
  | none => exact List.Perm.refl []
  | some perm => exact perm

theorem exists_perm_of_rel {found : Option (List String)} {items : List String}
    (row : Option.Rel List.Perm found (some items)) : ∃ old, found = some old ∧ old.Perm items := by
  cases row with
  | some perm => exact ⟨_, rfl, perm⟩

theorem Relisted.ofSets (again : table.Relisted other) (sets : table.OfSets) : other.OfSets := by
  have distinct : other.keys.Nodup := again.keys.nodup_iff.mp sets.keys
  refine ⟨distinct, ?_⟩
  rintro ⟨key, items⟩ member
  have row := again.rows key
  rw [get?_of_mem distinct member] at row
  obtain ⟨old, found, perm⟩ := exists_perm_of_rel row
  obtain ⟨once, filled⟩ := sets.rows _ (mem_of_get? found)
  refine ⟨perm.nodup_iff.mp once, ?_⟩
  intro none
  cases (none : items = [])
  exact filled perm.eq_nil

theorem Relisted.lists (again : table.Relisted other) (sets : table.OfSets) (key item : String) :
    other.Lists key item ↔ table.Lists key item := by
  rw [(again.ofSets sets).lists_iff, sets.lists_iff]
  exact (perm_getD_of_rel (again.rows key)).mem_iff.symm

end Table

end CallAtlas
