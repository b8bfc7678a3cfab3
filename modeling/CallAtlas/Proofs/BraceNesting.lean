import CallAtlas.Java.BodyPattern

/-! Texts whose braces pair up, how deep they nest, and where the block ends that a text begins
in. -/

namespace CallAtlas.Java

inductive Balanced : List Char → Prop where
  | nil : Balanced []
  | char {c : Char} {s : List Char} (notOpen : c ≠ '{') (notClose : c ≠ '}') (rest : Balanced s) :
      Balanced (c :: s)
  | block {s t : List Char} (inner : Balanced s) (rest : Balanced t) :
      Balanced ('{' :: (s ++ '}' :: t))

theorem Balanced.of_no_braces {s : List Char} (none : ∀ c ∈ s, c ≠ '{' ∧ c ≠ '}') : Balanced s := by
  induction s with
  | nil => exact .nil
  | cons c rest ih =>
    have here := none c List.mem_cons_self
    exact .char here.1 here.2 (ih fun d member => none d (List.mem_cons_of_mem c member))

theorem bodyLength?_char {depth : Nat} {c : Char} {rest : List Char} (notOpen : c ≠ '{')
    (notClose : c ≠ '}') :
    bodyLength? depth (c :: rest) = (bodyLength? depth rest).map (· + 1) := by
  rw [bodyLength?.eq_def]
  simp only [if_neg notOpen, if_neg notClose]

theorem bodyLength?_open {depth : Nat} {rest : List Char} :
    bodyLength? depth ('{' :: rest) =
      if depth < maxNesting then (bodyLength? (depth + 1) rest).map (· + 1) else none := by
  rw [bodyLength?.eq_def]
  simp only [if_true]

theorem bodyLength?_close {depth : Nat} {rest : List Char} :
    bodyLength? (depth + 1) ('}' :: rest) = (bodyLength? depth rest).map (· + 1) := rfl

/-- Texts whose braces pair up and nest at most `n` deep. -/
inductive Nests : Nat → List Char → Prop where
  | nil {n : Nat} : Nests n []
  | char {n : Nat} {c : Char} {s : List Char} (notOpen : c ≠ '{') (notClose : c ≠ '}')
      (rest : Nests n s) :
      Nests n (c :: s)
  | block {n : Nat} {s t : List Char} (inner : Nests n s) (rest : Nests (n + 1) t) :
      Nests (n + 1) ('{' :: (s ++ '}' :: t))

theorem Nests.balanced {n : Nat} {s : List Char} (nests : Nests n s) : Balanced s := by
  induction nests with
  | nil => exact .nil
  | char notOpen notClose _ ih => exact .char notOpen notClose ih
  | block _ _ inner rest => exact .block inner rest

/-- Texts that close `depth` blocks which are open before them, where blocks may nest `room` deep at
the beginning. -/
inductive Closes : (room depth : Nat) → List Char → Prop where
  | last {room : Nat} {s : List Char} (nests : Nests room s) : Closes room 0 s
  | close {room depth : Nat} {s t : List Char} (nests : Nests room s)
      (rest : Closes (room + 1) depth t) :
      Closes room (depth + 1) (s ++ '}' :: t)

namespace Closes

variable {room depth : Nat} {s : List Char}

theorem char {c : Char} (notOpen : c ≠ '{') (notClose : c ≠ '}') (closes : Closes room depth s) :
    Closes room depth (c :: s) := by
  cases closes with
  | last nests => exact .last (.char notOpen notClose nests)
  | close nests rest =>
    rw [← List.cons_append]
    exact .close (.char notOpen notClose nests) rest

theorem closed (closes : Closes (room + 1) depth s) : Closes room (depth + 1) ('}' :: s) :=
  .close .nil closes

theorem opened (closes : Closes room (depth + 1) s) : Closes (room + 1) depth ('{' :: s) := by
  cases closes with
  | close inner rest =>
    cases rest with
    | last nests => exact .last (.block inner nests)
    | @close _ _ t u nests rest =>
      have parts (s : List Char) : '{' :: (s ++ '}' :: (t ++ '}' :: u)) = '{' :: (s ++ '}' :: t) ++
          '}' :: u := by simp
      rw [parts]
      exact .close (.block inner nests) rest

end Closes

theorem exists_closes_of_bodyLength? {room depth n : Nat} {s : List Char}
    (rooms : room + depth = maxNesting) (found : bodyLength? depth s = some n) :
    ∃ body after, s = body ++ '}' :: after ∧ body.length = n ∧ Closes room depth body := by
  induction s generalizing room depth n with
  | nil => cases found
  | cons c rest ih =>
    by_cases opens : c = '{'
    · subst opens
      rw [bodyLength?_open] at found
      split at found
      case isFalse => cases found
      case isTrue shallow =>
        obtain ⟨m, later, rfl⟩ := Option.map_eq_some_iff.mp found
        obtain ⟨room, rfl⟩ : ∃ smaller, room = smaller + 1 := ⟨room - 1, by omega⟩
        have inner : room + (depth + 1) = maxNesting := by omega
        obtain ⟨body, after, rfl, rfl, closes⟩ := ih inner later
        exact ⟨'{' :: body, after, rfl, rfl, closes.opened⟩
    · by_cases shuts : c = '}'
      · subst shuts
        cases depth with
        | zero =>
          cases found
          exact ⟨[], rest, rfl, rfl, .last .nil⟩
        | succ depth =>
          rw [bodyLength?_close] at found
          obtain ⟨m, later, rfl⟩ := Option.map_eq_some_iff.mp found
          have outer : room + 1 + depth = maxNesting := by omega
          obtain ⟨body, after, rfl, rfl, closes⟩ := ih outer later
          exact ⟨'}' :: body, after, rfl, rfl, closes.closed⟩
      · rw [bodyLength?_char opens shuts] at found
        obtain ⟨m, later, rfl⟩ := Option.map_eq_some_iff.mp found
        obtain ⟨body, after, rfl, rfl, closes⟩ := ih rooms later
        exact ⟨c :: body, after, rfl, rfl, closes.char opens shuts⟩

theorem Nests.bodyLength? {room depth : Nat} {s : List Char} (nests : Nests room s)
    (rooms : room + depth ≤ maxNesting) (rest : List Char) :
    bodyLength? depth (s ++ rest) = (bodyLength? depth rest).map (· + s.length) := by
  induction nests generalizing depth rest with
  | nil =>
    rw [List.nil_append, List.length_nil]
    simp
  | char notOpen notClose _ ih =>
    rw [List.cons_append, bodyLength?_char notOpen notClose, ih rooms, Option.map_map]
    congr 1
  | @block room s t _ _ ihInner ihRest =>
    have inner : ∀ more, Java.bodyLength? (depth + 1) (s ++ more) =
        (Java.bodyLength? (depth + 1) more).map (· + s.length) :=
      fun more => ihInner (by omega) more
    rw [List.cons_append, bodyLength?_open, if_pos (by omega), List.append_assoc, inner,
      List.cons_append, bodyLength?_close, ihRest rooms, Option.map_map, Option.map_map,
      Option.map_map]
    congr 1
    funext k
    simp only [Function.comp_apply, List.length_cons, List.length_append]
    omega

/-- A body is found just if its braces nest as deep as they may, and it goes up to the brace that
closes it. -/
theorem bodyLength?_eq_some_iff {s : List Char} {n : Nat} :
    bodyLength? 0 s = some n ↔ ∃ body after, s = body ++ '}' :: after ∧ body.length = n ∧
    Nests 2 body := by
  constructor
  · intro found
    have rooms : 2 + 0 = maxNesting := rfl
    obtain ⟨body, after, split, length, closes⟩ := exists_closes_of_bodyLength? rooms found
    cases closes with
    | last nests => exact ⟨body, after, split, length, nests⟩
  · rintro ⟨body, after, rfl, rfl, nests⟩
    rw [nests.bodyLength? (Nat.le_refl 2)]
    exact congrArg some (Nat.zero_add body.length)

/-- How many blocks are open after a text if `level` are open before it; none if a brace closes what
is not open. -/
def levelAfter (level : Nat) : List Char → Option Nat
  | [] => some level
  | c :: rest =>
    if c = '{' then levelAfter (level + 1) rest
    else if c = '}' then
      match level with
      | 0 => none
      | level + 1 => levelAfter level rest
    else levelAfter level rest

theorem levelAfter_append (level : Nat) (s t : List Char) :
    levelAfter level (s ++ t) = (levelAfter level s).bind (levelAfter · t) := by
  induction s generalizing level with
  | nil => rfl
  | cons c rest ih =>
    rw [List.cons_append, levelAfter.eq_def, levelAfter.eq_def level (c :: rest)]
    simp only [ih]
    split
    · rfl
    · split
      · cases level <;> rfl
      · rfl

theorem Balanced.levelAfter {s : List Char} (balanced : Balanced s) (level : Nat) :
    levelAfter level s = some level := by
  induction balanced generalizing level with
  | nil => rfl
  | char notOpen notClose _ ih => simpa [Java.levelAfter, notOpen, notClose] using ih level
  | block _ _ inner rest => simp [Java.levelAfter, levelAfter_append, inner, rest]

theorem closes_of_levelAfter {room depth : Nat} {s : List Char} (enough : s.length ≤ room)
    (level : levelAfter depth s = some 0) : Closes room depth s := by
  induction s generalizing room depth with
  | nil =>
    cases level
    exact .last .nil
  | cons c rest ih =>
    rw [List.length_cons] at enough
    rw [levelAfter.eq_def] at level
    simp only at level
    split at level
    · rename_i opens
      subst opens
      obtain ⟨room, rfl⟩ : ∃ smaller, room = smaller + 1 := ⟨room - 1, by omega⟩
      exact (ih (by omega) level).opened
    · split at level
      · rename_i shuts
        subst shuts
        split at level
        · cases level
        · exact (ih (by omega) level).closed
      · rename_i notOpen notClose
        exact (ih (by omega) level).char notOpen notClose

theorem balanced_iff_levelAfter {s : List Char} : Balanced s ↔ levelAfter 0 s = some 0 := by
  constructor
  · intro balanced
    exact balanced.levelAfter 0
  · intro level
    cases closes_of_levelAfter (Nat.le_refl s.length) level with
    | last nests => exact nests.balanced

instance : DecidablePred Balanced := fun _ => decidable_of_iff _ balanced_iff_levelAfter.symm

theorem Balanced.not_of_close {s : List Char} (balanced : Balanced s) (t : List Char) :
    ¬ Balanced (s ++ '}' :: t) := by
  rw [balanced_iff_levelAfter, levelAfter_append, balanced.levelAfter 0]
  exact Option.some_ne_none 0 ∘ Eq.symm

theorem Balanced.eq_of_append {s t u v : List Char} (first : Balanced s) (second : Balanced t)
    (same : s ++ '}' :: u = t ++ '}' :: v) : s = t := by
  rcases List.append_eq_append_iff.mp same with ⟨more, longer, rest⟩ | ⟨more, longer, rest⟩
  · cases more with
    | nil => rw [longer, List.append_nil]
    | cons c more =>
      obtain ⟨rfl, _⟩ := List.cons.inj rest
      exact (first.not_of_close more (longer ▸ second)).elim
  · cases more with
    | nil => rw [longer, List.append_nil]
    | cons c more =>
      obtain ⟨rfl, _⟩ := List.cons.inj rest
      exact (second.not_of_close more (longer ▸ first)).elim

end CallAtlas.Java
