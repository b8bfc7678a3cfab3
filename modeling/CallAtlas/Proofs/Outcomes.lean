import Mathlib.Data.List.Forall2

/-! Computations that may fail: what success of the whole says about its steps. -/

namespace CallAtlas

variable {ε α β : Type}

theorem forall₂_imp_mem {R S : α → β → Prop} {xs : List α} {ys : List β}
    (all : List.Forall₂ R xs ys) (weaker : ∀ x ∈ xs, ∀ y, R x y → S x y) :
    List.Forall₂ S xs ys := by
  induction all with
  | nil => exact .nil
  | cons first _ ih =>
    have here := weaker _ List.mem_cons_self _ first
    exact .cons here (ih fun x member => weaker x (List.mem_cons_of_mem _ member))

theorem exists_of_forall₂_right {R : α → β → Prop} {xs : List α} {ys : List β}
    (all : List.Forall₂ R xs ys) {y : β} (member : y ∈ ys) : ∃ x ∈ xs, R x y := by
  induction all with
  | nil => cases member
  | cons first _ ih =>
    rcases List.mem_cons.mp member with rfl | later
    · exact ⟨_, List.mem_cons_self, first⟩
    · obtain ⟨x, present, related⟩ := ih later
      exact ⟨x, List.mem_cons_of_mem _ present, related⟩

theorem exists_between_of_forall₂ {γ : Type} {R : α → γ → Prop} {P : α → β → Prop}
    {Q : β → γ → Prop} {xs : List α} {zs : List γ} (all : List.Forall₂ R xs zs)
    (split : ∀ x ∈ xs, ∀ z, R x z → ∃ y, P x y ∧ Q y z) :
    ∃ ys, List.Forall₂ P xs ys ∧ List.Forall₂ Q ys zs := by
  induction all with
  | nil => exact ⟨[], .nil, .nil⟩
  | cons first _ ih =>
    obtain ⟨y, left, right⟩ := split _ List.mem_cons_self _ first
    obtain ⟨ys, lefts, rights⟩ := ih fun x member => split x (List.mem_cons_of_mem _ member)
    exact ⟨y :: ys, .cons left lefts, .cons right rights⟩

theorem bind_eq_ok {x : Except ε α} {f : α → Except ε β} {b : β} :
    x >>= f = .ok b ↔ ∃ a, x = .ok a ∧ f a = .ok b := by
  cases x with
  | error e => simp [bind, Except.bind]
  | ok a => simp [bind, Except.bind]

theorem pure_eq_ok {a b : α} : (pure a : Except ε α) = .ok b ↔ a = b := by
  simp [pure, Except.pure]

theorem mapError_eq_ok {ε' : Type} {x : Except ε α} {f : ε → ε'} {a : α} : x.mapError f = .ok a ↔
    x = .ok a := by
  cases x <;> simp [Except.mapError]

theorem mapM_eq_ok {f : α → Except ε β} {xs : List α} {ys : List β} :
    xs.mapM f = .ok ys ↔ List.Forall₂ (fun x y => f x = .ok y) xs ys := by
  induction xs generalizing ys with
  | nil =>
    rw [List.mapM_nil, pure_eq_ok, List.forall₂_nil_left_iff]
    exact eq_comm
  | cons x xs ih =>
    rw [List.mapM_cons, bind_eq_ok, List.forall₂_cons_left_iff]
    constructor
    · rintro ⟨y, first, rest⟩
      obtain ⟨tail, later, finish⟩ := bind_eq_ok.mp rest
      exact ⟨y, tail, first, ih.mp later, (pure_eq_ok.mp finish).symm⟩
    · rintro ⟨y, tail, first, later, rfl⟩
      exact ⟨y, first, bind_eq_ok.mpr ⟨tail, ih.mpr later, rfl⟩⟩

theorem mapM_eq_some {f : α → Option β} {xs : List α} {ys : List β} :
    xs.mapM f = some ys ↔ List.Forall₂ (fun x y => f x = some y) xs ys := by
  induction xs generalizing ys with
  | nil =>
    rw [List.mapM_nil, List.forall₂_nil_left_iff, Option.pure_def, Option.some.injEq]
    exact eq_comm
  | cons x xs ih =>
    rw [List.mapM_cons, Option.bind_eq_bind, Option.bind_eq_some_iff, List.forall₂_cons_left_iff]
    constructor
    · rintro ⟨y, first, rest⟩
      obtain ⟨tail, later, finish⟩ := Option.bind_eq_some_iff.mp rest
      exact ⟨y, tail, first, ih.mp later, (Option.some.inj finish).symm⟩
    · rintro ⟨y, tail, first, later, rfl⟩
      exact ⟨y, first, Option.bind_eq_some_iff.mpr ⟨tail, ih.mpr later, rfl⟩⟩

theorem mem_of_mapM_eq_ok {f : α → Except ε β} {xs : List α} {ys : List β}
    (done : xs.mapM f = .ok ys) (y : β) :
    y ∈ ys ↔ ∃ x ∈ xs, f x = .ok y := by
  have pairs := mapM_eq_ok.mp done
  clear done
  induction pairs with
  | nil => simp
  | cons first _ ih =>
    simp [ih, first, eq_comm]

theorem exists_of_mapM_eq_ok {f : α → Except ε β} {xs : List α} {ys : List β}
    (done : xs.mapM f = .ok ys) :
    ∀ x ∈ xs, ∃ y, f x = .ok y := by
  have pairs := mapM_eq_ok.mp done
  clear done
  induction pairs with
  | nil => simp
  | cons first _ ih =>
    intro x member
    rcases List.mem_cons.mp member with rfl | later
    · exact ⟨_, first⟩
    · exact ih x later

theorem exists_of_mapM_eq_error {f : α → Except ε β} {xs : List α} {e : ε}
    (failed : xs.mapM f = .error e) :
    ∃ x ∈ xs, f x = .error e := by
  induction xs with
  | nil => cases failed
  | cons x xs ih =>
    rw [List.mapM_cons] at failed
    cases first : f x with
    | error e' =>
      rw [first] at failed
      cases failed
      exact ⟨x, List.mem_cons_self, first⟩
    | ok y =>
      cases later : xs.mapM f with
      | error e' =>
        rw [first, later] at failed
        cases failed
        obtain ⟨z, member, reason⟩ := ih later
        exact ⟨z, List.mem_cons_of_mem x member, reason⟩
      | ok ys =>
        rw [first, later] at failed
        cases failed

theorem bind_pure_eq_error {x : Except ε α} {f : α → β} {e : ε} :
    (x >>= fun a => pure (f a)) = .error e ↔ x = .error e := by
  cases x with
  | error e' => simp [bind, Except.bind]
  | ok a => simp [bind, Except.bind, pure, Except.pure]

theorem mapM_cons_eq_error {f : α → Except ε β} {x : α} {xs : List α} {e : ε} :
    (x :: xs).mapM f = .error e ↔ f x = .error e ∨ (∃ y, f x = .ok y) ∧ xs.mapM f = .error e := by
  rw [List.mapM_cons]
  cases f x with
  | error e' => simp [bind, Except.bind]
  | ok y => cases xs.mapM f <;> simp [bind, Except.bind, pure, Except.pure]

theorem foldlM_cons_of_ok {σ : Type} {step : σ → α → Except ε σ} {s next : σ} {x : α} (xs : List α)
    (first : step s x = .ok next) :
    (x :: xs).foldlM step s = xs.foldlM step next := by
  rw [List.foldlM_cons, first]
  rfl

theorem foldlM_cons_of_error {σ : Type} {step : σ → α → Except ε σ} {s : σ} {x : α}
    {e : ε} (xs : List α) (first : step s x = .error e) : (x :: xs).foldlM step s = .error e := by
  rw [List.foldlM_cons, first]
  rfl

end CallAtlas
