import CallAtlas.Proofs.MethodGrammar
import Mathlib.Data.List.Basic

/-!
The search for a body against the grammar of methods: it succeeds just if the text holds a method,
and it finds the body of the methods that begin leftmost.
-/

namespace CallAtlas.Java

open Text

namespace Place

def after (before rest : List Char) : Place := ⟨before.getLast?, before.length, rest⟩

variable {before rest : List Char}

@[simp] theorem rest_after (before rest : List Char) : (after before rest).rest = rest := rfl

theorem advance_after (before piece rest : List Char) :
    (after before (piece ++ rest)).advance piece.length = after (before ++ piece) rest := by
  cases piece with
  | nil => rw [List.append_nil]; rfl
  | cons c piece =>
    rw [advance, if_neg (by simp)]
    simp only [after, List.take_left, List.drop_left, List.length_append, List.getLast?_append,
      List.getLast?_cons, Option.some_or]

theorem expect?_after (before word rest : List Char) :
    (after before (word ++ rest)).expect? word = some (after (before ++ word) rest) := by
  rw [expect?, rest_after, if_pos (List.isPrefixOf_iff_prefix.mpr (List.prefix_append word rest)),
    advance_after]

theorem exists_of_expect? {word : List Char} {q : Place}
    (found : (after before rest).expect? word = some q) :
    ∃ more, rest = word ++ more ∧ q = after (before ++ word) more := by
  obtain ⟨more, rfl⟩ : word <+: rest := by
    rw [expect?] at found
    split at found
    case isTrue front => exact List.isPrefixOf_iff_prefix.mp front
    case isFalse => cases found
  rw [expect?_after] at found
  exact ⟨more, rfl, (Option.some.inj found).symm⟩

theorem skipWhile_after {test : Char → Bool} {run : List Char} (before rest : List Char)
    (passes : run.all test = true) (stops : rest.head?.any test = false) :
    (after before (run ++ rest)).skipWhile test = after (before ++ run) rest := by
  have taken : (run ++ rest).takeWhile test = run := by
    rw [List.takeWhile_append_of_pos (List.all_eq_true.mp passes)]
    cases rest with
    | nil => simp
    | cons c rest =>
      rw [List.takeWhile_cons_of_neg (by simpa using stops), List.append_nil]
  have length : ((after before (run ++ rest)).rest.takeWhile test).length = run.length :=
    congrArg List.length taken
  rw [skipWhile, length, advance_after]

theorem exists_of_skipWhile (test : Char → Bool) (before rest : List Char) :
    ∃ run more, rest = run ++ more ∧ run.all test = true ∧
      (after before rest).skipWhile test = after (before ++ run) more := by
  refine ⟨rest.takeWhile test, rest.dropWhile test, List.takeWhile_append_dropWhile.symm,
    List.all_takeWhile, ?_⟩
  have step := advance_after before (rest.takeWhile test) (rest.dropWhile test)
  rwa [List.takeWhile_append_dropWhile] at step

theorem expect?_skipWhile_after {test : Char → Bool} {run : List Char} {c : Char}
    (before rest : List Char) (passes : run.all test = true) (stops : test c = false) :
    ((after before (run ++ c :: rest)).skipWhile test).expect? [c] =
    some (after (before ++ (run ++ [c])) rest) := by
  rw [skipWhile_after before (c :: rest) passes stops, ← List.append_assoc]
  exact expect?_after (before ++ run) [c] rest

theorem isWordEdge_after (before rest : List Char) :
    (after before rest).isWordEdge =
    (before.getLast?.any isWordChar != rest.head?.any isWordChar) := by
  rw [isWordEdge, after]
  cases before.getLast? <;> cases rest.head? <;> rfl

end Place

theorem all_ne_iff {c : Char} {s : List Char} : s.all (· != c) = true ↔ c ∉ s := by
  rw [List.all_eq_true]
  constructor
  · intro all member
    exact bne_iff_ne.mp (all c member) rfl
  · rintro none d member
    rw [bne_iff_ne]
    rintro rfl
    exact none member

theorem any_getLast?_append {test : Char → Bool} {t : List Char} (last : t.getLast?.any test = true)
    (s : List Char) :
    (s ++ t).getLast?.any test = true := by
  rw [List.getLast?_append]
  cases found : t.getLast? with
  | none =>
    rw [found] at last
    cases last
  | some c =>
    rw [found] at last
    exact last

theorem any_head?_append {test : Char → Bool} {s : List Char} (first : s.head?.any test = true)
    (t : List Char) :
    (s ++ t).head?.any test = true := by
  cases s with
  | nil => cases first
  | cons c s => exact first

theorem findSome?_modifierWords {before word rest : List Char} (listed : word ∈ modifierWords) :
    modifierWords.findSome? (Place.after before (word ++ rest)).expect? =
    some (.after (before ++ word) rest) := by
  cases found : modifierWords.findSome? (Place.after before (word ++ rest)).expect? with
  | none =>
    have missed := List.findSome?_eq_none_iff.mp found word listed
    rw [Place.expect?_after] at missed
    cases missed
  | some q =>
    obtain ⟨other, known, here⟩ := List.exists_of_findSome?_eq_some found
    obtain ⟨more, split, rfl⟩ := Place.exists_of_expect? here
    have same : other = word := by
      rcases List.prefix_or_prefix_of_prefix (split ▸ List.prefix_append other more)
        (List.prefix_append word rest) with
        shorter | longer
      · exact modifierWords_apart other known word listed shorter
      · exact (modifierWords_apart word listed other known longer).symm
    subst same
    rw [List.append_cancel_left split]

theorem modifier?_of_modifies {before piece rest : List Char}
    (modifies : Modifies before piece rest) :
    modifier? (.after before (piece ++ rest)) = some (.after (before ++ piece) rest) := by
  cases modifies with
  | word listed front back =>
    obtain ⟨first, last⟩ := modifierWords_edges piece listed
    have edge : (Place.after before (piece ++ rest)).isWordEdge = true := by
      rw [Place.isWordEdge_after, front, any_head?_append first]
      rfl
    have edge' : (Place.after (before ++ piece) rest).isWordEdge = true := by
      rw [Place.isWordEdge_after, back, any_getLast?_append last]
      rfl
    simp only [modifier?, edge, if_true, findSome?_modifierWords listed, Option.filter_some, edge']
  | @blank c rest blank =>
    have noWord : modifierWords.findSome? (Place.after before ([c] ++ rest)).expect? = none := by
      rw [List.findSome?_eq_none_iff]
      intro word listed
      by_contra found
      obtain ⟨q, here⟩ := Option.ne_none_iff_exists'.mp found
      obtain ⟨more, split, _⟩ := Place.exists_of_expect? here
      have first := any_head?_append (modifierWords_edges word listed).1 more
      rw [← split] at first
      exact Bool.false_ne_true ((isWordChar_of_blank blank).symm.trans first)
    have step := Place.advance_after before [c] rest
    simp only [List.singleton_append, List.length_singleton] at noWord step ⊢
    simp only [modifier?, noWord, ite_self, Option.filter_none, Place.rest_after,
      blank, if_true, step]

theorem exists_of_modifier? {before rest : List Char} {q : Place}
    (found : modifier? (.after before rest) = some q) :
    ∃ piece more, rest = piece ++ more ∧ Modifies before piece more ∧
      q = .after (before ++ piece) more := by
  unfold modifier? at found
  simp only at found
  split at found
  · rename_i word _ same
    cases found
    obtain ⟨isWord, edge'⟩ := Option.filter_eq_some_iff.mp same
    split at isWord
    case isFalse => cases isWord
    case isTrue edge =>
      obtain ⟨text, listed, here⟩ := List.exists_of_findSome?_eq_some isWord
      obtain ⟨more, rfl, rfl⟩ := Place.exists_of_expect? here
      obtain ⟨first, last⟩ := modifierWords_edges text listed
      rw [Place.isWordEdge_after, any_head?_append first] at edge
      rw [Place.isWordEdge_after, any_getLast?_append last] at edge'
      exact ⟨text, more, rfl, .word listed (by simpa using edge) (by simpa using edge'), rfl⟩
  · rename_i c rest' _ same
    split at found
    case isFalse => cases found
    case isTrue blank =>
      rw [Place.rest_after] at same
      subst same
      refine ⟨[c], rest', rfl, .blank blank, ?_⟩
      rw [← Place.advance_after]
      exact (Option.some.inj found).symm
  · cases found

theorem subset_placesAfter (step : Place → Option Place) (fuel : Nat) (p : Place)
    (found : List Place) :
    found ⊆ placesAfter step fuel p found := by
  induction fuel generalizing p found with
  | zero => exact List.Subset.refl found
  | succ fuel ih =>
    rw [placesAfter]
    split
    · exact fun _ member => ih _ _ (List.mem_cons_of_mem _ member)
    · exact List.Subset.refl found

theorem placesAfter_of_step {step : Place → Option Place} {p q : Place}
    (stepped : step p = some q) (fuel : Nat) (found : List Place) :
    placesAfter step (fuel + 1) p found = placesAfter step fuel q (q :: found) := by
  rw [placesAfter, stepped]

theorem Modifies.ne_nil {before piece after : List Char} (modifies : Modifies before piece after) :
    piece ≠ [] := by
  cases modifies with
  | word listed _ _ =>
    have none : ∀ word ∈ modifierWords, word ≠ [] := by decide
    exact none _ listed
  | blank _ => exact List.cons_ne_nil _ _

theorem Modifiers.mem_placesAfter {before run rest : List Char}
    (modifiers : Modifiers before run rest) {fuel : Nat}
    (enough : run.length ≤ fuel) (found : List Place) :
    Place.after (before ++ run) rest ∈ placesAfter modifier? fuel
      (.after before (run ++ rest)) found := by
  induction modifiers generalizing fuel found with
  | one modifies =>
    have long := List.length_pos_of_ne_nil modifies.ne_nil
    obtain ⟨fuel, rfl⟩ : ∃ less, fuel = less + 1 := ⟨fuel - 1, by omega⟩
    rw [placesAfter_of_step (modifier?_of_modifies modifies)]
    exact subset_placesAfter _ _ _ _ List.mem_cons_self
  | more modifies _ ih =>
    have long := List.length_pos_of_ne_nil modifies.ne_nil
    rw [List.length_append] at enough
    obtain ⟨fuel, rfl⟩ : ∃ less, fuel = less + 1 := ⟨fuel - 1, by omega⟩
    rw [List.append_assoc, placesAfter_of_step (modifier?_of_modifies modifies),
      ← List.append_assoc]
    exact ih (by omega) _

/-- Places after one or more steps, if each step passes over a piece and runs are made of pieces. -/
theorem exists_run_of_mem {step : Place → Option Place}
    {P R : (before run after : List Char) → Prop}
    (each : ∀ {before rest q}, step (.after before rest) = some q →
      ∃ piece more, rest = piece ++ more ∧ P before piece more ∧ q = .after (before ++ piece) more)
    (one : ∀ {before piece after}, P before piece after → R before piece after)
    (more : ∀ {before piece run after}, P before piece (run ++ after) →
      R (before ++ piece) run after → R before (piece ++ run) after) {fuel : Nat}
      {before rest : List Char} {found : List Place} {q : Place}
    (member : q ∈ placesAfter step fuel (.after before rest) found) :
    q ∈ found ∨ ∃ run after, rest = run ++ after ∧ R before run after ∧
    q = .after (before ++ run) after := by
  induction fuel generalizing before rest found with
  | zero => exact .inl member
  | succ fuel ih =>
    rw [placesAfter] at member
    split at member
    · rename_i next stepped
      obtain ⟨piece, _, rfl, isPiece, rfl⟩ := each stepped
      rcases ih member with here | ⟨run, after, rfl, isRun, rfl⟩
      · rcases List.mem_cons.mp here with rfl | old
        · exact .inr ⟨piece, _, rfl, one isPiece, rfl⟩
        · exact .inl old
      · exact .inr ⟨piece ++ run, after, (List.append_assoc ..).symm,
          more isPiece isRun, by rw [List.append_assoc]⟩
    · exact .inl member

theorem exists_modifiers {fuel : Nat} {before rest : List Char} {q : Place}
    (member : q ∈ placesAfter modifier? fuel (.after before rest) []) :
    ∃ run more, rest = run ++ more ∧ Modifiers before run more ∧ q = .after (before ++ run) more :=
  (exists_run_of_mem exists_of_modifier? .one .more member).resolve_left List.not_mem_nil

theorem blank?_after {c : Char} (blank : isBlank c = true) (before rest : List Char) :
    blank? (.after before (c :: rest)) = some (.after (before ++ [c]) rest) := by
  rw [blank?.eq_def]
  simp only [Place.rest_after, blank, if_true]
  exact congrArg some (Place.advance_after before [c] rest)

theorem mem_placesAfter_blanks {before gap rest : List Char} (filled : gap ≠ [])
    (blanks : gap.all isBlank = true) {fuel : Nat}
    (enough : gap.length ≤ fuel) (found : List Place) :
    Place.after (before ++ gap) rest ∈ placesAfter blank? fuel
      (.after before (gap ++ rest)) found := by
  induction gap generalizing before fuel found with
  | nil => exact absurd rfl filled
  | cons c gap ih =>
    rw [List.all_cons, Bool.and_eq_true] at blanks
    rw [List.length_cons] at enough
    obtain ⟨fuel, rfl⟩ : ∃ less, fuel = less + 1 := ⟨fuel - 1, by omega⟩
    rw [List.cons_append, placesAfter_of_step (blank?_after blanks.1 before (gap ++ rest))]
    cases gap with
    | nil => exact subset_placesAfter _ _ _ _ List.mem_cons_self
    | cons d gap =>
      have parts : before ++ c :: d :: gap = (before ++ [c]) ++ d :: gap := by simp
      rw [parts]
      exact ih (List.cons_ne_nil d gap) blanks.2 (by omega) _

theorem exists_of_blank? {before rest : List Char} {q : Place}
    (found : blank? (.after before rest) = some q) :
    ∃ piece more, rest = piece ++ more ∧ (∃ c, piece = [c] ∧ isBlank c = true) ∧
      q = .after (before ++ piece) more := by
  rw [blank?.eq_def] at found
  split at found
  · rename_i c more same
    rw [Place.rest_after] at same
    subst same
    split at found
    case isFalse => cases found
    case isTrue blank =>
      refine ⟨[c], more, rfl, ⟨c, rfl, blank⟩, ?_⟩
      rw [← Place.advance_after]
      exact (Option.some.inj found).symm
  · cases found

theorem exists_blanks {fuel : Nat} {before rest : List Char} {q : Place}
    (member : q ∈ placesAfter blank? fuel (.after before rest) []) :
    ∃ gap more, rest = gap ++ more ∧ (gap ≠ [] ∧ gap.all isBlank = true) ∧
      q = .after (before ++ gap) more := by
  refine (exists_run_of_mem (R := fun _ gap _ => gap ≠ [] ∧
    gap.all isBlank = true) exists_of_blank? ?_ ?_
    member).resolve_left List.not_mem_nil
  · rintro before _ after ⟨c, rfl, blank⟩
    exact ⟨List.cons_ne_nil c [], by simpa using blank⟩
  · rintro before _ run after ⟨c, rfl, blank⟩ ⟨_, blanks⟩
    exact ⟨List.cons_ne_nil c run, by simp [blank, blanks]⟩

theorem typeRun?_after {type rest : List Char} (before : List Char) (filled : type ≠ [])
    (typed : type.all isTypeChar = true) (stops : rest.head?.any isTypeChar = false) :
    typeRun? (.after before (type ++ rest)) = some (.after (before ++ type) rest) := by
  have long := List.length_pos_of_ne_nil filled
  unfold typeRun?
  simp only [Place.skipWhile_after before rest typed stops]
  rw [if_neg]
  simp only [Place.after, List.length_append]
  omega

theorem exists_of_typeRun? {before rest : List Char} {q : Place}
    (found : typeRun? (.after before rest) = some q) :
    ∃ type more, rest = type ++ more ∧ type ≠ [] ∧ type.all isTypeChar = true ∧
      q = .after (before ++ type) more := by
  unfold typeRun? at found
  obtain ⟨type, more, rfl, typed, stops⟩ := Place.exists_of_skipWhile isTypeChar before rest
  simp only [stops] at found
  split at found
  case isTrue => cases found
  case isFalse moved =>
    refine ⟨type, more, rfl, ?_, typed, (Option.some.inj found).symm⟩
    rintro rfl
    exact moved (by rw [List.append_nil]; rfl)

theorem clause_after {clause : List Char} (isClause : IsClause clause) (before rest : List Char) :
    (match ((Place.after before (clause ++ '{' :: rest)).skipWhile isBlank).expect?
      "throws".toList with
      | some q => q.skipWhile (· != '{')
      | none => (Place.after before (clause ++ '{' :: rest)).skipWhile isBlank).expect? ['{'] =
      some (.after (before ++ (clause ++ ['{'])) rest) := by
  obtain ⟨gap, _, rfl, blanks, rfl | ⟨thrown, rfl, noBrace⟩⟩ := isClause
  · have noThrows :
        ((Place.after before (gap ++ [] ++ '{' :: rest)).skipWhile isBlank).expect?
          "throws".toList = none := by
      rw [List.append_nil, Place.skipWhile_after before ('{' :: rest) blanks rfl]
      rfl
    rw [noThrows, List.append_nil]
    exact Place.expect?_skipWhile_after before rest blanks rfl
  · have throws :
        ((Place.after before (gap ++ ("throws".toList ++ thrown) ++ '{' :: rest)).skipWhile
          isBlank).expect?
        "throws".toList =
        some (.after (before ++ gap ++ "throws".toList) (thrown ++ '{' :: rest)) := by
      rw [List.append_assoc, List.append_assoc, Place.skipWhile_after before _ blanks rfl,
        Place.expect?_after]
    rw [throws]
    have brace :=
      Place.expect?_skipWhile_after (c := '{') (before ++ gap ++ "throws".toList) rest
        (all_ne_iff.mpr noBrace)
      (by decide)
    simpa only [List.append_assoc] using brace

theorem exists_of_clause {before rest : List Char} {q : Place}
    (found : (match ((Place.after before rest).skipWhile isBlank).expect? "throws".toList with
      | some r => r.skipWhile (· != '{')
      | none => (Place.after before rest).skipWhile isBlank).expect? ['{'] = some q) :
    ∃ clause more, rest =
      clause ++ '{' :: more ∧ IsClause clause ∧ q = .after (before ++ (clause ++ ['{'])) more := by
  obtain ⟨gap, _, rfl, blanks, stops⟩ := Place.exists_of_skipWhile isBlank before rest
  rw [stops] at found
  split at found
  · rename_i thrown
    obtain ⟨tail, rfl, rfl⟩ := Place.exists_of_expect? thrown
    obtain ⟨types, _, rfl, noBrace, stops⟩ :=
      Place.exists_of_skipWhile (· != '{') (before ++ gap ++ "throws".toList) tail
    rw [stops] at found
    obtain ⟨more, rfl, rfl⟩ := Place.exists_of_expect? found
    exact ⟨gap ++ ("throws".toList ++ types), more, by simp,
      ⟨gap, _, rfl, blanks, .inr ⟨types, rfl, all_ne_iff.mp noBrace⟩⟩, by simp⟩
  · obtain ⟨more, rfl, rfl⟩ := Place.exists_of_expect? found
    exact ⟨gap, more, rfl, ⟨gap, [], (List.append_nil gap).symm, blanks, .inl rfl⟩, by simp⟩

theorem exists_of_bodyAfterName? {before rest : List Char} {segment : Segment}
    (found : bodyAfterName? (.after before rest) = some segment) :
    ∃ signature body after, rest = signature ++ '{' :: (body ++ '}' :: after) ∧
      IsSignature signature ∧ Nests 2 body ∧
      segment = ⟨before.length + signature.length + 1,
      before.length + signature.length + 1 + body.length⟩ := by
  unfold bodyAfterName? at found
  simp only [Option.bind_eq_bind, Option.bind_eq_some_iff, Option.pure_def,
    Option.some.injEq] at found
  obtain ⟨_, opened, _, closed, _, braced, _, block, rfl⟩ := found
  obtain ⟨gap, _, rfl, blanks, stops⟩ := Place.exists_of_skipWhile isBlank before rest
  rw [stops] at opened
  obtain ⟨tail, rfl, rfl⟩ := Place.exists_of_expect? opened
  obtain ⟨parameters, _, rfl, noClose, stops⟩ :=
    Place.exists_of_skipWhile (· != ')') (before ++ gap ++ ['(']) tail
  rw [stops] at closed
  obtain ⟨_, rfl, rfl⟩ := Place.exists_of_expect? closed
  obtain ⟨clause, _, rfl, isClause, rfl⟩ := exists_of_clause braced
  obtain ⟨body, after, tail, rfl, nested⟩ := bodyLength?_eq_some_iff.mp block
  rw [Place.rest_after] at tail
  subst tail
  refine ⟨gap ++ (['('] ++ (parameters ++ ([')'] ++ clause))), body, after, by simp,
    ⟨gap, _, rfl, blanks, _, rfl, parameters, _, rfl, all_ne_iff.mp noClose, clause, rfl, isClause⟩,
    nested, ?_⟩
  simp only [Place.after, List.length_append, List.length_singleton, Segment.mk.injEq]
  omega

theorem bodyAfterName?_after {signature body : List Char} (before after : List Char)
    (signs : IsSignature signature) (nested : Nests 2 body) :
    (bodyAfterName? (.after before (signature ++ '{' :: (body ++ '}' :: after)))).isSome =
    true := by
  obtain ⟨gap, _, rfl, blanks, _, rfl, parameters, _, rfl, noClose, clause, rfl, isClause⟩ := signs
  have parts : gap ++ (['('] ++ (parameters ++ ([')'] ++ clause))) ++ '{' ::
      (body ++ '}' :: after) =
      gap ++ '(' :: (parameters ++ ')' :: (clause ++ '{' :: (body ++ '}' :: after))) := by simp
  have block : bodyLength? 0 (body ++ '}' :: after) = some body.length :=
    bodyLength?_eq_some_iff.mpr ⟨body, after, rfl, rfl, nested⟩
  rw [parts, Option.isSome_iff_exists]
  simp only [bodyAfterName?, Option.bind_eq_bind, Option.bind_eq_some_iff]
  exact ⟨_, _, Place.expect?_skipWhile_after before _ blanks rfl,
    _, Place.expect?_skipWhile_after _ _ (all_ne_iff.mpr noClose) (by decide), _,
    clause_after isClause _ _, _, block, rfl⟩

theorem MethodText.isSome_bodyAt? {fuel : Nat} {name text rest : List Char}
    (method : MethodText name text) (split : text = method.before ++ rest)
    (enough : text.length ≤ fuel) :
    (bodyAt? fuel name (.after method.before rest)).isSome = true := by
  obtain ⟨before, lead, _, body, after, rfl, modified,
    ⟨type, gap, signature, rfl, typeFilled, typed, gapFilled, blanks, signs⟩,
    nested⟩ := method
  obtain rfl := List.append_cancel_left split
  simp only [List.length_append] at enough
  have stops :
      (gap ++ (name ++ (signature ++ '{' :: (body ++ '}' :: after)))).head?.any isTypeChar =
      false := by
    cases gap with
    | nil => exact absurd rfl gapFilled
    | cons c gap => exact isTypeChar_of_blank (List.all_eq_true.mp blanks c List.mem_cons_self)
  rw [bodyAt?, List.findSome?_isSome_iff]
  refine ⟨_, modified.mem_placesAfter (by omega) [], ?_⟩
  simp only [List.append_assoc, typeRun?_after _ typeFilled typed stops, Option.bind_eq_bind,
    Option.bind_some, List.findSome?_isSome_iff]
  refine ⟨_, mem_placesAfter_blanks gapFilled blanks (by omega) [], ?_⟩
  rw [Place.expect?_after]
  exact bodyAfterName?_after _ after signs nested

theorem exists_method_of_bodyAt? {fuel : Nat} {name before rest : List Char} {segment : Segment}
    (found : bodyAt? fuel name (.after before rest) = some segment) :
    ∃ method : MethodText name (before ++ rest), method.before = before ∧
      method.block = segment := by
  obtain ⟨_, afterModifiers, found⟩ := List.exists_of_findSome?_eq_some found
  obtain ⟨lead, _, rfl, modified, rfl⟩ := exists_modifiers afterModifiers
  simp only [Option.bind_eq_bind, Option.bind_eq_some_iff] at found
  obtain ⟨_, typeFound, found⟩ := found
  obtain ⟨type, _, rfl, typeFilled, typed, rfl⟩ := exists_of_typeRun? typeFound
  obtain ⟨_, afterBlanks, found⟩ := List.exists_of_findSome?_eq_some found
  obtain ⟨gap, _, rfl, ⟨gapFilled, blanks⟩, rfl⟩ := exists_blanks afterBlanks
  simp only [Option.bind_eq_some_iff] at found
  obtain ⟨_, named, found⟩ := found
  obtain ⟨_, rfl, rfl⟩ := Place.exists_of_expect? named
  obtain ⟨signature, body, after, rfl, signs, nested, rfl⟩ := exists_of_bodyAfterName? found
  have spells : type ++ (gap ++ (name ++ (signature ++ '{' :: (body ++ '}' :: after)))) =
      type ++ (gap ++ (name ++ signature)) ++ '{' :: (body ++ '}' :: after) := by simp
  rw [spells] at modified
  refine ⟨⟨before, lead, type ++ (gap ++ (name ++ signature)), body, after, by simp, modified,
    ⟨type, gap, signature, rfl, typeFilled, typed, gapFilled, blanks, signs⟩, nested⟩, rfl, ?_⟩
  simp only [MethodText.block, List.length_append, Segment.mk.injEq]
  omega

namespace MethodText

variable {name text : List Char}

/-- No method of the name begins further left. -/
def IsFirst (method : MethodText name text) : Prop :=
  ∀ other : MethodText name text, method.start ≤ other.start

theorem start_lt (method : MethodText name text) : method.start < text.length := by
  have length := congrArg List.length method.spells
  simp only [List.length_append, List.length_cons] at length
  rw [start]
  omega

theorem before_eq {before rest : List Char} (method : MethodText name text)
    (split : text = before ++ rest) (here : method.start = before.length) :
    method.before = before :=
  List.append_inj_left (method.spells.symm.trans split) here

theorem exists_earlier (method : MethodText name text)
    (blank : (method.before.getLast?.map isBlank).getD false = true) :
    ∃ earlier : MethodText name text, earlier.start < method.start := by
  obtain ⟨before, lead, head, body, after, rfl, modified, headed, nested⟩ := method
  rcases List.eq_nil_or_concat' before with rfl | ⟨init, c, rfl⟩
  · cases blank
  · simp only [List.getLast?_concat] at blank
    refine ⟨⟨init, [c] ++ lead, head, body, after, by simp, .more (.blank blank) modified,
      headed, nested⟩, ?_⟩
    simp [start]

end MethodText

theorem bodyFrom?_after {fuel : Nat} {name text before rest : List Char}
    (split : text = before ++ rest) (enough : text.length ≤ fuel)
    (fresh : ∀ method : MethodText name text, before.length ≤ method.start) :
    (bodyFrom? fuel name before.getLast? before.length rest = none →
      IsEmpty (MethodText name text)) ∧
      ∀ segment, bodyFrom? fuel name before.getLast? before.length rest = some segment →
        ∃ first : MethodText name text, first.IsFirst ∧ first.block = segment := by
  induction rest generalizing before with
  | nil =>
    refine ⟨fun _ => ⟨fun method => ?_⟩, fun segment found => by cases found⟩
    have length := congrArg List.length split
    have early := method.start_lt
    have late := fresh method
    rw [List.append_nil] at length
    omega
  | cons c rest ih =>
    have further : text = (before ++ [c]) ++ rest := by simpa using split
    have next := ih further
    rw [List.getLast?_concat, List.length_append, List.length_singleton] at next
    rw [bodyFrom?]
    split
    · rename_i segment here
      split at here
      case isTrue => cases here
      case isFalse =>
        subst split
        obtain ⟨method, starts, rfl⟩ := exists_method_of_bodyAt? here
        refine ⟨fun missed => (Option.some_ne_none _ missed).elim,
          fun found same => ⟨method, fun other => ?_, Option.some.inj same⟩⟩
        rw [MethodText.start, starts]
        exact fresh other
    · rename_i missed
      apply next
      intro method
      apply Nat.lt_of_le_of_ne (fresh method)
      intro here
      have starts := method.before_eq split here.symm
      split at missed
      case isTrue blanks =>
        obtain ⟨earlier, further⟩ :=
          method.exists_earlier (starts ▸ (Bool.and_eq_true_iff.mp blanks).1)
        have := fresh earlier
        omega
      case isFalse =>
        have found := method.isSome_bodyAt? (starts ▸ split) enough
        rw [starts, Place.after, missed] at found
        cases found

theorem MethodText.IsFirst.block_eq {name text : List Char} {first other : MethodText name text}
    (isFirst : first.IsFirst) (isFirst' : other.IsFirst) : first.block = other.block :=
  MethodText.block_eq first other (Nat.le_antisymm (isFirst other) (isFirst' first))

theorem findBody?_cases (name text : List Char) :
    (findBody? name text = none → IsEmpty (MethodText name text)) ∧
      ∀ segment, findBody? name text = some segment →
        ∃ first : MethodText name text, first.IsFirst ∧ first.block = segment := by
  have whole : text = [] ++ text := rfl
  exact bodyFrom?_after whole (Nat.le_refl _) fun _ => Nat.zero_le _

theorem isSome_findBody?_iff {name text : List Char} :
    (findBody? name text).isSome = true ↔ Nonempty (MethodText name text) := by
  obtain ⟨missed, found⟩ := findBody?_cases name text
  cases result : findBody? name text with
  | none =>
    refine ⟨fun isSome => (Bool.false_ne_true isSome).elim, ?_⟩
    rintro ⟨method⟩
    exact ((missed result).false method).elim
  | some segment =>
    obtain ⟨first, _⟩ := found segment result
    exact ⟨fun _ => ⟨first⟩, fun _ => rfl⟩

theorem findBody?_eq_some_iff {name text : List Char} {segment : Segment} :
    findBody? name text = some segment ↔ ∃ first : MethodText name text, first.IsFirst ∧
    first.block = segment := by
  obtain ⟨missed, found⟩ := findBody?_cases name text
  refine ⟨found segment, ?_⟩
  rintro ⟨first, isFirst, rfl⟩
  cases result : findBody? name text with
  | none => exact ((missed result).false first).elim
  | some segment =>
    obtain ⟨other, isFirst', rfl⟩ := found segment result
    rw [isFirst.block_eq isFirst']

theorem extractBody_aligned {source name text : List Char} (named : name.head? ≠ some '<')
    (aligned : text.length = source.length) :
    extractBody source name (some text) =
      .ok ((findBody? name text).map fun segment => strip (segment.cut source)) := by
  rw [extractBody, if_neg named, Option.getD_some, if_neg (not_not_intro aligned)]

/-- A body is found just if the text holds a method of the name, and it is the body of the leftmost
ones. -/
theorem extractBody_leftmost (text name : List Char) (named : name.head? ≠ some '<') :
    ∃ result, extractBody text name none = .ok result ∧
      (result.isSome = true ↔ Nonempty (MethodText name text)) ∧
      (∀ body, result = some body ↔ ∃ first : MethodText name text, first.IsFirst ∧
        strip first.body = body) ∧ ∀ first other : MethodText name text, first.IsFirst →
        other.IsFirst → first.block = other.block := by
  refine ⟨(findBody? name text).map fun segment => strip (segment.cut text), ?_, ?_, ?_, ?_⟩
  · rw [extractBody, if_neg named]
    exact if_neg (not_not_intro rfl)
  · rw [Option.isSome_map, isSome_findBody?_iff]
  · intro body
    simp only [Option.map_eq_some_iff, findBody?_eq_some_iff]
    constructor
    · rintro ⟨_, ⟨first, isFirst, rfl⟩, rfl⟩
      exact ⟨first, isFirst, by rw [first.cut_block]⟩
    · rintro ⟨first, isFirst, rfl⟩
      exact ⟨_, ⟨first, isFirst, rfl⟩, by rw [first.cut_block]⟩
  · intro first other isFirst isFirst'
    exact isFirst.block_eq isFirst'

/-- A body that nests too deep, and a method whose modifier may as well be read as part of its
type. -/
def nestedText : List Char :=
  "class A \x7b int f() \x7b\x7b\x7b\x7b\x7d\x7d\x7d\x7d public[] f(int a) throws E \x7b g(); \x7b\x7b\x7d\x7d \x7d \x7d".toList

theorem extractBody_leftmost_nested :
    "f".toList.head? ≠ some '<' ∧ ∃ first : MethodText "f".toList nestedText, first.IsFirst ∧
      extractBody nestedText "f".toList none = .ok (some (strip first.body)) ∧
        strip first.body = "g(); \x7b\x7b\x7d\x7d".toList ∧
          ∀ other : MethodText "f".toList nestedText, other.IsFirst →
            other.block = first.block := by
  have named : "f".toList.head? ≠ some '<' := by decide
  have found : extractBody nestedText "f".toList none =
      .ok (some "g(); \x7b\x7b\x7d\x7d".toList) := by decide +kernel
  obtain ⟨result, extracted, _, bodies, same⟩ := extractBody_leftmost nestedText "f".toList named
  rw [found] at extracted
  obtain ⟨first, isFirst, body⟩ := (bodies _).mp (Except.ok.inj extracted).symm
  exact ⟨named, first, isFirst, by rw [found, body], body,
    fun other isFirst' => same other first isFirst' isFirst⟩

end CallAtlas.Java
