import CallAtlas.Text.Order

/-! Lists sorted by a text that belongs to each of their items. -/

namespace CallAtlas

section Filtered

variable {α : Type} {le : α → α → Bool}

theorem mergeSort_cons_cut (trans : ∀ a b c, le a b = true → le b c = true → le a c = true)
    (total : ∀ a b, (le a b || le b a) = true) (a : α) (xs : List α) :
    ∃ front back, (a :: xs).mergeSort le = front ++ a :: back ∧ xs.mergeSort le = front ++ back ∧
      (∀ b ∈ front, (!le a b) = true) ∧ ∀ b ∈ back, le a b = true := by
  obtain ⟨front, back, sorted, rest, below⟩ := List.mergeSort_cons trans total a xs
  have order := List.pairwise_mergeSort trans total (a :: xs)
  rw [sorted, List.pairwise_append] at order
  refine ⟨front, back, sorted, rest, below, ?_⟩
  intro b member
  exact List.rel_of_pairwise_cons order.2.1 member

theorem takeWhile_of_cut {a : α} {front back : List α} (below : ∀ b ∈ front, (!le a b) = true)
    (above : ∀ b ∈ back, le a b = true) : (front ++ back).takeWhile (fun b => !le a b) = front := by
  rw [List.takeWhile_append_of_pos below]
  cases back with
  | nil => simp
  | cons b rest => simp [above b List.mem_cons_self]

/-- Sorting what is kept and keeping some of what is sorted come to the same. -/
theorem filter_mergeSort (trans : ∀ a b c, le a b = true → le b c = true → le a c = true)
    (total : ∀ a b, (le a b || le b a) = true) (keep : α → Bool) (xs : List α) :
    (xs.mergeSort le).filter keep = (xs.filter keep).mergeSort le := by
  induction xs with
  | nil => simp
  | cons a xs ih =>
    obtain ⟨front, back, sorted, rest, below, above⟩ := mergeSort_cons_cut trans total a xs
    rw [rest, List.filter_append] at ih
    rw [sorted, List.filter_append, List.filter_cons, List.filter_cons]
    split
    · obtain ⟨front', back', sorted', rest', below', above'⟩ :=
        mergeSort_cons_cut trans total a (xs.filter keep)
      rw [rest'] at ih
      have cut : front.filter keep = front' := by
        calc
          front.filter keep = (front.filter keep ++ back.filter keep).takeWhile fun b => !le a b :=
            (takeWhile_of_cut (fun b member => below b (List.mem_filter.mp member).1)
              fun b member => above b (List.mem_filter.mp member).1).symm
          _ = (front' ++ back').takeWhile fun b => !le a b := by rw [ih]
          _ = front' := takeWhile_of_cut below' above'
      rw [cut] at ih ⊢
      rw [sorted', List.append_cancel_left ih]
    · exact ih

end Filtered

section Keys

variable {α : Type} (key : α → String)

theorem keyLe_trans (a b c : α) (first : decide (key a ≤ key b) = true)
    (second : decide (key b ≤ key c) = true) :
    decide (key a ≤ key c) = true := by
  rw [decide_eq_true_eq] at first second ⊢
  exact String.le_trans first second

theorem keyLe_total (a b : α) : (decide (key a ≤ key b) || decide (key b ≤ key a)) = true := by
  simpa using String.le_total (key a) (key b)

theorem pairwise_sortBy (xs : List α) : (xs.mergeSort fun a b => key a ≤ key b).Pairwise fun a b =>
    key a ≤ key b := by
  have order := List.pairwise_mergeSort (keyLe_trans key) (keyLe_total key) xs
  simpa using order

theorem strict_sortBy {xs : List α} (distinct : (xs.map key).Nodup) :
    (xs.mergeSort fun a b => key a ≤ key b).Pairwise fun a b => key a < key b := by
  have sorted : ((xs.mergeSort fun a b => key a ≤ key b).map key).Nodup :=
    ((List.mergeSort_perm xs _).map key).nodup_iff.mpr distinct
  have apart := List.pairwise_map.mp sorted
  refine ((pairwise_sortBy key xs).and apart).imp ?_
  rintro a b ⟨le, ne⟩
  exact Std.lt_of_le_of_ne le ne

theorem filter_sortBy (keep : α → Bool) (xs : List α) :
    (xs.mergeSort fun a b => key a ≤ key b).filter keep = (xs.filter keep).mergeSort fun a b =>
      key a ≤ key b :=
  filter_mergeSort (keyLe_trans key) (keyLe_total key) keep xs

theorem eq_of_strict {xs ys : List α} (ascends : xs.Pairwise fun a b => key a < key b)
    (ascends' : ys.Pairwise fun a b => key a < key b) (same : ∀ x, x ∈ xs ↔ x ∈ ys) : xs = ys := by
  have apart {a b : α} (below : key a < key b) : a ≠ b := by
    intro eq
    subst eq
    exact String.lt_irrefl _ below
  have perm : xs.Perm ys :=
    (List.perm_ext_iff_of_nodup (ascends.imp apart) (ascends'.imp apart)).mpr same
  apply perm.eq_of_pairwise _ ascends ascends'
  intro a b _ _ below above
  exact absurd (String.lt_trans below above) (String.lt_irrefl _)

end Keys

namespace Text

theorem mem_sortTexts {x : String} {xs : List String} : x ∈ sortTexts xs ↔ x ∈ xs :=
  List.mem_mergeSort

theorem pairwise_sortTexts (xs : List String) : (sortTexts xs).Pairwise (· ≤ ·) :=
  pairwise_sortBy id xs

theorem strict_sortTexts {xs : List String} (distinct : xs.Nodup) :
    (sortTexts xs).Pairwise (· < ·) :=
  strict_sortBy id (by rwa [List.map_id])

theorem filter_sortTexts (keep : String → Bool) (xs : List String) :
    (sortTexts xs).filter keep = sortTexts (xs.filter keep) := filter_sortBy id keep xs

theorem sortTexts_perm {xs ys : List String} (perm : xs.Perm ys) : sortTexts xs = sortTexts ys := by
  have same : (sortTexts xs).Perm (sortTexts ys) :=
    (List.mergeSort_perm xs _).trans (perm.trans (List.mergeSort_perm ys _).symm)
  refine same.eq_of_pairwise ?_ (pairwise_sortTexts xs) (pairwise_sortTexts ys)
  intro a b _ _ below above
  exact String.le_antisymm below above

end Text

end CallAtlas
