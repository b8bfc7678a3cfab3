import CallAtlas.Proofs.FileWrites

/-! Absolute paths in normal form lead downwards only, and to the same place as the paths that they
are the normal forms of. -/

namespace CallAtlas

theorem Text.mem_splitAtEach {c : Char} {s part : List Char} (member : part ∈ splitAtEach c s) :
    c ∉ part ∧ part ⊆ s := by
  induction s generalizing part with
  | nil =>
    cases List.mem_singleton.mp member
    exact ⟨List.not_mem_nil, List.Subset.refl _⟩
  | cons x rest ih =>
    obtain ⟨first, others, split⟩ := List.exists_cons_of_ne_nil (splitAtEach_ne_nil c rest)
    rw [splitAtEach, split] at member
    rw [split] at ih
    have tail {later : List Char} (present : later ∈ first :: others) : c ∉ later ∧
        later ⊆ x :: rest :=
      ⟨(ih present).1, List.subset_cons_of_subset x (ih present).2⟩
    split at member
    · rcases List.mem_cons.mp member with rfl | later
      · exact ⟨List.not_mem_nil, List.nil_subset _⟩
      · exact tail later
    · rename_i apart
      rcases List.mem_cons.mp member with rfl | later
      · have here := ih List.mem_cons_self
        rw [List.mem_cons, not_or]
        exact ⟨⟨Ne.symm apart, here.1⟩, List.cons_subset_cons x here.2⟩
      · exact tail (List.mem_cons_of_mem first later)

namespace Files

theorem noSlash_of_mem_components {path part : String} (member : part ∈ components path) :
    '/' ∉ part.toList := by
  obtain ⟨chars, present, rfl⟩ := List.mem_map.mp member
  rw [String.toList_ofList]
  exact (Text.mem_splitAtEach present).1

/-- A path from the root that never turns back. -/
structure Downward (path : String) : Prop where
  rooted : isAbsolute path = true
  straight : ".." ∉ components path

theorem ne_empty_of_isAbsolute {path : String} (rooted : isAbsolute path = true) : path ≠ "" := by
  intro empty
  subst empty
  cases rooted

theorem joinPath_of_isAbsolute {path : String} (rooted : isAbsolute path = true) (dir : String) :
    joinPath dir path = path := by
  rw [joinPath, if_pos rooted]

theorem isAbsolute_joinPath {dir : String} (rooted : isAbsolute dir = true) (path : String) :
    isAbsolute (joinPath dir path) = true := by
  have nonempty := ne_empty_of_isAbsolute rooted
  rw [joinPath]
  split
  · assumption
  · split
    · rw [isAbsolute_append nonempty, rooted]
    · rw [String.append_assoc, isAbsolute_append nonempty, rooted]

theorem components_joinPath {dir name : String} (nonempty : dir ≠ "")
    (noSlash : '/' ∉ name.toList) :
    ∃ front, components (joinPath dir name) = front ++ [name] ∧
      (components dir = front ∨ components dir = front ++ [""]) := by
  have present : dir.isEmpty = false := by simpa [String.isEmpty_iff] using nonempty
  rw [joinPath, isAbsolute_of_noSlash noSlash, present]
  by_cases ends : dir.toList.getLast? = some '/'
  · obtain ⟨front, split⟩ := List.getLast?_eq_some_iff.mp ends
    have parts : dir = String.ofList front ++ "/" ++ "" := by
      apply String.toList_inj.mp
      simp [split]
    refine ⟨components (String.ofList front), ?_, .inr ?_⟩
    · have whole : dir ++ name = String.ofList front ++ "/" ++ name := by
        apply String.toList_inj.mp
        simp [split]
      simp only [Bool.false_eq_true, ↓reduceIte, ends, decide_true, Bool.or_true]
      rw [whole, components_append, components_plain noSlash]
    · rw [parts, components_append]
      rfl
  · refine ⟨components dir, ?_, .inl rfl⟩
    simp only [Bool.false_eq_true, ↓reduceIte, ends, decide_false, Bool.or_self]
    rw [components_append, components_plain noSlash]

theorem Downward.join {dir name : String} (down : Downward dir) (noSlash : '/' ∉ name.toList)
    (notAbove : name ≠ "..") :
    Downward (joinPath dir name) := by
  obtain ⟨front, parts, before⟩ := components_joinPath (ne_empty_of_isAbsolute down.rooted) noSlash
  refine ⟨isAbsolute_joinPath down.rooted name, ?_⟩
  have straight : ".." ∉ front := by
    have all := down.straight
    rcases before with same | same <;> rw [same] at all
    · exact all
    · exact fun member => all (List.mem_append_left _ member)
  rw [parts, List.mem_append, List.mem_singleton, not_or]
  exact ⟨straight, Ne.symm notAbove⟩

theorem Downward.entry {dir name : String} (down : Downward dir) (plain : PlainName name) :
    Downward (joinPath dir name) :=
  down.join plain.noSlash plain.notAbove

theorem pushPart_plain {parts : List String} (plain : ∀ part ∈ parts, PlainName part)
    {part : String} (noSlash : '/' ∉ part.toList) :
    ∀ kept ∈ pushPart true parts part, PlainName kept := by
  unfold pushPart
  split
  · exact plain
  · rename_i moves
    split
    · rename_i down
      have named : part ≠ "" ∧ part ≠ "." := by simpa using moves
      rw [List.forall_mem_cons]
      exact ⟨⟨named.1, named.2, down, noSlash⟩, plain⟩
    · cases parts with
      | nil => exact plain
      | cons last before =>
        rw [List.forall_mem_cons] at plain
        simp only [plain.1.notAbove, ↓reduceIte]
        exact plain.2

theorem foldl_pushPart_plain {path parts : List String} (noSlash : ∀ part ∈ path, '/' ∉ part.toList)
    (plain : ∀ part ∈ parts, PlainName part) : ∀ kept ∈ path.foldl (pushPart true) parts,
    PlainName kept := by
  induction path generalizing parts with
  | nil => exact plain
  | cons part rest ih =>
    rw [List.forall_mem_cons] at noSlash
    exact ih noSlash.2 (pushPart_plain plain noSlash.1)

theorem straight_intercalate {parts : List String} (plain : ∀ part ∈ parts, PlainName part) :
    ".." ∉ components ("/".intercalate parts) := by
  induction parts with
  | nil => decide
  | cons part rest ih =>
    rw [List.forall_mem_cons] at plain
    have here : ".." ∉ components part := by
      rw [components_plain plain.1.noSlash, List.mem_singleton]
      exact Ne.symm plain.1.notAbove
    cases rest with
    | nil =>
      rw [String.intercalate_singleton]
      exact here
    | cons next later =>
      rw [String.intercalate_cons_cons, components_append, List.mem_append, not_or]
      exact ⟨here, ih plain.2⟩

theorem rootSlashes_of_isAbsolute {path : String} (rooted : isAbsolute path = true) :
    rootSlashes path = "/" ∨ rootSlashes path = "//" := by
  rw [isAbsolute, decide_eq_true_eq, List.head?_eq_some_iff] at rooted
  obtain ⟨rest, chars⟩ := rooted
  rw [rootSlashes, chars, List.takeWhile_cons_of_pos rfl]
  split
  · rename_i impossible
    cases impossible
  · exact .inr rfl
  · exact .inl rfl

theorem normalParts_plain (path : String) :
    ∀ part ∈ ((components path).foldl (pushPart true) []).reverse, PlainName part := by
  intro part member
  exact foldl_pushPart_plain (fun _ => noSlash_of_mem_components) (by simp) part
    (List.mem_reverse.mp member)

theorem normalize_downward {path : String} (rooted : isAbsolute path = true) :
    Downward (normalize path) := by
  have straight := straight_intercalate (normalParts_plain path)
  -- A root is one or two empty parts before the others.
  have below (text : String) (free : ".." ∉ components text) : Downward ("/" ++ text) := by
    refine ⟨by simp [isAbsolute], ?_⟩
    have parts : components ("/" ++ text) = components "" ++ components text :=
      components_append "" text
    rw [parts, List.mem_append, not_or]
    exact ⟨by decide, free⟩
  have nonempty (text : String) : ("/" ++ text).isEmpty = false := by simp
  have double (text : String) :
      "//" ++ text = "/" ++ ("/" ++ text) := by rw [← String.append_assoc]; rfl
  rcases rootSlashes_of_isAbsolute rooted with root | root
  · simp only [normalize, root, nonempty, Bool.false_eq_true, ↓reduceIte]
    exact below _ straight
  · simp only [normalize, root, double, nonempty, Bool.false_eq_true, ↓reduceIte]
    exact below _ (below _ straight).straight

theorem absolute_downward {cwd : String} (rooted : isAbsolute cwd = true) (path : String) :
    Downward (absolute cwd path) :=
  normalize_downward (isAbsolute_joinPath rooted path)

def steps (path : String) : List String := (Route.ofPath path).parts

def moves (part : String) : Bool := !(part = "" || part = ".")

theorem steps_eq_filter (path : String) : steps path = (components path).filter moves := by
  apply List.filter_congr
  intro part _
  simp [moves]

theorem moves_of_plain {name : String} (plain : PlainName name) : moves name = true := by
  simp [moves, plain.nonempty, plain.notHere]

theorem pushPart_stay {part : String} (still : ¬ moves part = true) (rooted : Bool)
    (parts : List String) :
    pushPart rooted parts part = parts := by
  have stays : (part = "" || part = ".") = true := by simpa [moves, or_iff_not_imp_left] using still
  unfold pushPart
  rw [if_pos stays]

theorem pushPart_down {part : String} (moving : moves part = true) (down : part ≠ "..")
    (rooted : Bool) (parts : List String) :
    pushPart rooted parts part = part :: parts := by
  have named : ¬ (part = "" || part = ".") = true := by simpa [moves] using moving
  unfold pushPart
  rw [if_neg named, if_pos down]

theorem pushPart_up {parts : List String} (straight : ".." ∉ parts) :
    pushPart true parts ".." = parts.tail := by
  cases parts with
  | nil => rfl
  | cons last before =>
    rw [List.mem_cons, not_or] at straight
    have down : last ≠ ".." := Ne.symm straight.1
    simp [pushPart, down]

theorem foldl_pushPart_straight {path : List String} (straight : ".." ∉ path)
    (parts : List String) :
    path.foldl (pushPart true) parts = (path.filter moves).reverse ++ parts := by
  induction path generalizing parts with
  | nil => rfl
  | cons part rest ih =>
    rw [List.mem_cons, not_or] at straight
    rw [List.foldl_cons, ih straight.2]
    by_cases moving : moves part = true
    · rw [pushPart_down moving (Ne.symm straight.1), List.filter_cons_of_pos moving,
        List.reverse_cons, List.append_assoc, List.singleton_append]
    · rw [pushPart_stay moving, List.filter_cons_of_neg moving]

theorem steps_append (first second : String) :
    steps (first ++ "/" ++ second) = steps first ++ steps second := by
  rw [steps_eq_filter, components_append, List.filter_append, ← steps_eq_filter, ← steps_eq_filter]

theorem steps_name {name : String} (noSlash : '/' ∉ name.toList) (moving : moves name = true) :
    steps name = [name] := by
  rw [steps_eq_filter, components_plain noSlash, List.filter_singleton, moving]
  rfl

theorem steps_plain {name : String} (plain : PlainName name) : steps name = [name] :=
  steps_name plain.noSlash (moves_of_plain plain)

theorem steps_joinPath {dir name : String} (nonempty : dir ≠ "") (noSlash : '/' ∉ name.toList) :
    steps (joinPath dir name) = steps dir ++ steps name := by
  obtain ⟨front, parts, before⟩ := components_joinPath nonempty noSlash
  rw [steps_eq_filter, steps_eq_filter, steps_eq_filter, parts, components_plain noSlash,
    List.filter_append]
  rcases before with same | same <;> rw [same]
  rw [List.filter_append]
  simp [moves]

theorem steps_intercalate {parts : List String} (noSlash : ∀ part ∈ parts, '/' ∉ part.toList)
    (moving : ∀ part ∈ parts, moves part = true) : steps ("/".intercalate parts) = parts := by
  induction parts with
  | nil => decide
  | cons part rest ih =>
    rw [List.forall_mem_cons] at noSlash moving
    cases rest with
    | nil => rw [String.intercalate_singleton, steps_name noSlash.1 moving.1]
    | cons next later =>
      rw [String.intercalate_cons_cons, steps_append, steps_name noSlash.1 moving.1,
        ih noSlash.2 moving.2, List.singleton_append]

theorem steps_slash (text : String) : steps ("/" ++ text) = steps text := steps_append "" text

theorem steps_slashes (text : String) : steps ("//" ++ text) = steps text := by
  have double : "//" ++ text = "/" ++ ("/" ++ text) := by
    rw [← String.append_assoc]
    rfl
  rw [double, steps_slash, steps_slash]

theorem steps_normalize {path : String} (rooted : isAbsolute path = true) :
    steps (normalize path) = ((components path).foldl (pushPart true) []).reverse := by
  have plain := normalParts_plain path
  have same := steps_intercalate (fun part member => (plain part member).noSlash)
    fun part member => moves_of_plain (plain part member)
  rcases rootSlashes_of_isAbsolute rooted with root | root
  · have nonempty (text : String) : ("/" ++ text).isEmpty = false := by simp
    simp only [normalize, root, nonempty, Bool.false_eq_true, ↓reduceIte]
    rw [steps_slash]
    exact same
  · have nonempty (text : String) : ("//" ++ text).isEmpty = false := by simp
    simp only [normalize, root, nonempty, Bool.false_eq_true, ↓reduceIte]
    rw [steps_slashes]
    exact same

theorem foldl_pushPart_filter (rooted : Bool) (path parts : List String) :
    path.foldl (pushPart rooted) parts = (path.filter moves).foldl (pushPart rooted) parts := by
  induction path generalizing parts with
  | nil => rfl
  | cons part rest ih =>
    rw [List.foldl_cons, ih]
    by_cases moving : moves part = true
    · rw [List.filter_cons_of_pos moving, List.foldl_cons]
    · rw [List.filter_cons_of_neg moving, pushPart_stay moving]

/-- The names of a normal form are the names of the path, every `..` being taken. -/
theorem steps_normalize_eq {path : String} (rooted : isAbsolute path = true) :
    steps (normalize path) = ((steps path).foldl (pushPart true) []).reverse := by
  rw [steps_normalize rooted, foldl_pushPart_filter, steps_eq_filter]

namespace Route

structure Clean (route : Route) : Prop where
  noSlash : ∀ part ∈ route.parts, '/' ∉ part.toList
  moving : ∀ part ∈ route.parts, moves part = true

structure Rooted (route : Route) : Prop extends Clean route where
  root : route.root = "/" ∨ route.root = "//"

variable {route : Route}

theorem Rooted.toPath_eq (rooted : route.Rooted) :
    route.toPath = route.root ++ "/".intercalate route.parts := by
  have nonempty : (route.root ++ "/".intercalate route.parts).isEmpty = false := by
    rcases rooted.root with root | root <;> simp [root]
  rw [toPath, nonempty]
  rfl

theorem Rooted.isAbsolute_toPath (rooted : route.Rooted) : isAbsolute route.toPath = true := by
  rw [rooted.toPath_eq]
  rcases rooted.root with root | root <;> simp [root, isAbsolute]

theorem Rooted.steps_toPath (rooted : route.Rooted) : steps route.toPath = route.parts := by
  rw [rooted.toPath_eq]
  rcases rooted.root with root | root
  · rw [root, steps_slash, steps_intercalate rooted.noSlash rooted.moving]
  · rw [root, steps_slashes, steps_intercalate rooted.noSlash rooted.moving]

theorem clean_ofPath (path : String) : (ofPath path).Clean := by
  constructor
  · intro part member
    exact noSlash_of_mem_components (List.mem_filter.mp member).1
  · intro part member
    change part ∈ steps path at member
    rw [steps_eq_filter] at member
    exact (List.mem_filter.mp member).2

theorem rooted_ofPath {path : String} (absolute : isAbsolute path = true) : (ofPath path).Rooted :=
  ⟨clean_ofPath path, rootSlashes_of_isAbsolute absolute⟩

theorem takeWhile_of_relative {path : String} (relative : isAbsolute path = false) :
    path.toList.takeWhile (· == '/') = [] := by
  cases chars : path.toList with
  | nil => rfl
  | cons c rest => exact List.takeWhile_cons_of_neg (by simpa [isAbsolute, chars] using relative)

theorem ofPath_of_noSlash {name : String} (noSlash : '/' ∉ name.toList) :
    ofPath name = ⟨"", [name].filter moves⟩ := by
  have root :
      rootSlashes name =
      "" := by rw [rootSlashes, takeWhile_of_relative (isAbsolute_of_noSlash noSlash)]
  have parts : steps name = [name].filter moves := by rw [steps_eq_filter, components_plain noSlash]
  calc
    ofPath name = ⟨rootSlashes name, steps name⟩ := rfl
    _ = ⟨"", [name].filter moves⟩ := by rw [root, parts]

theorem rooted_of_plain {names : List String} (plain : ∀ name ∈ names, PlainName name) :
    Rooted ⟨"/", names⟩ :=
  ⟨⟨fun name member => (plain name member).noSlash,
    fun name member => moves_of_plain (plain name member)⟩, .inl rfl⟩

theorem isAbsolute_intercalate {names : List String} (plain : ∀ name ∈ names, PlainName name) :
    isAbsolute ("/".intercalate names) = false := by
  cases names with
  | nil => decide
  | cons name rest =>
    rw [List.forall_mem_cons] at plain
    cases rest with
    | nil => rw [String.intercalate_singleton, isAbsolute_of_noSlash plain.1.noSlash]
    | cons next later =>
      rw [String.intercalate_cons_cons, String.append_assoc, isAbsolute_append plain.1.nonempty,
        isAbsolute_of_noSlash plain.1.noSlash]

theorem ofPath_toPath {names : List String} (plain : ∀ name ∈ names, PlainName name) :
    ofPath (toPath ⟨"/", names⟩) = ⟨"/", names⟩ := by
  have rooted := rooted_of_plain plain
  have root : rootSlashes (toPath ⟨"/", names⟩) = "/" := by
    have chars : (toPath ⟨"/", names⟩).toList = '/' :: ("/".intercalate names).toList := by
      rw [rooted.toPath_eq]
      simp
    rw [rootSlashes, chars, List.takeWhile_cons_of_pos rfl,
      takeWhile_of_relative (isAbsolute_intercalate plain)]
  calc
    ofPath (toPath ⟨"/", names⟩) =
      ⟨rootSlashes (toPath ⟨"/", names⟩), steps (toPath ⟨"/", names⟩)⟩ := rfl
    _ = ⟨"/", names⟩ := by rw [root, rooted.steps_toPath]

theorem downward_toPath {names : List String} (plain : ∀ name ∈ names, PlainName name) :
    Downward (toPath ⟨"/", names⟩) := by
  have rooted := rooted_of_plain plain
  refine ⟨rooted.isAbsolute_toPath, ?_⟩
  intro member
  have kept : ".." ∈ steps (toPath ⟨"/", names⟩) := by
    rw [steps_eq_filter]
    exact List.mem_filter.mpr ⟨member, by decide⟩
  rw [rooted.steps_toPath] at kept
  exact (plain _ kept).notAbove rfl

end Route

namespace FileTree

theorem names_of_follow {parts : List String} {above last : List (FileTree × String)}
    {tree found : FileTree} (straight : ".." ∉ above.map Prod.snd)
    (run : follow above tree parts = .ok (last, found)) :
    last.map Prod.snd = parts.foldl (pushPart true) (above.map Prod.snd) := by
  induction parts generalizing above tree with
  | nil =>
    cases run
    rfl
  | cons part rest ih =>
    rw [follow_cons] at run
    rw [List.foldl_cons]
    unfold pushPart
    split at run
    · cases run
    · split at run
      · rename_i stays
        rw [if_pos stays]
        exact ih straight run
      · rename_i moves
        rw [if_neg moves]
        split at run
        · rename_i up
          rw [if_neg (not_not.mpr up)]
          cases above with
          | nil => exact ih straight run
          | cons step above =>
            rw [List.map_cons, List.mem_cons, not_or] at straight
            simp only [List.map_cons, Ne.symm straight.1, ↓reduceIte]
            exact ih straight.2 run
        · rename_i down
          rw [if_pos down]
          split at run
          · cases run
          · rename_i next _
            have deeper : ".." ∉ ((tree, part) :: above).map Prod.snd := by
              rw [List.map_cons, List.mem_cons, not_or]
              exact ⟨Ne.symm down, straight⟩
            exact ih deeper run

theorem isDir_of_lookup {tree found : FileTree} {way : List String}
    (there : tree.lookup way = some found) (isDir : found.isDir = true) : tree.isDir = true := by
  cases way with
  | nil =>
    cases there
    exact isDir
  | cons name rest =>
    obtain ⟨middle, entry, _⟩ := lookup_cons_eq_some.mp there
    exact isDir_of_get? entry

theorem follow_straight {parts : List String} (straight : ".." ∉ parts)
    (above : List (FileTree × String)) {tree found : FileTree}
    (there : tree.lookup (parts.filter moves) = some found)
    (isDir : found.isDir = true)
    (short : ∀ name ∈ parts, (Text.encodeUtf8 name.toList).length ≤ maxName) :
    ∃ last, follow above tree parts = .ok (last, found) ∧
      names last = names above ++ parts.filter moves := by
  induction parts generalizing above tree with
  | nil =>
    cases there
    exact ⟨above, rfl, by simp⟩
  | cons part rest ih =>
    rw [List.mem_cons, not_or] at straight
    rw [List.forall_mem_cons] at short
    have here : ¬ (!tree.isDir) = true := by simp [isDir_of_lookup there isDir]
    have same : (part = "" || part = ".") = !moves part := (Bool.not_not _).symm
    rw [follow_cons, if_neg here, same]
    cases moving : moves part with
    | false =>
      rw [List.filter_cons_of_neg (by simp [moving])] at there ⊢
      exact ih straight.2 above there short.2
    | true =>
      rw [List.filter_cons_of_pos moving] at there ⊢
      obtain ⟨middle, entry, later⟩ := lookup_cons_eq_some.mp there
      rw [if_neg (by simp), if_neg (Ne.symm straight.1), child_eq_ok.mpr ⟨short.1, entry⟩]
      obtain ⟨last, run, way⟩ := ih straight.2 ((tree, part) :: above) later short.2
      refine ⟨last, run, ?_⟩
      rw [way]
      simp [names]

end FileTree

namespace Disk

open FileTree

variable {disk : Disk}

/-- What a path leads to has the names of its normal form on the way. -/
theorem way_of_locate {path : String} {way : List String} {tree : FileTree}
    (rooted : isAbsolute disk.cwd = true) (found : disk.locate path = .ok (way, tree)) :
    way = steps (absolute disk.cwd path) := by
  obtain ⟨_, above, run, rfl⟩ := locate_eq_ok.mp found
  rw [absolute, steps_normalize (isAbsolute_joinPath rooted path), names,
    names_of_follow (by simp) run]
  rfl

theorem locate_of_lookup {path : String} {tree : FileTree} (down : Downward path)
    (there : disk.root.lookup (steps path) = some tree) (isDir : tree.isDir = true)
    (short : ∀ name ∈ steps path, (Text.encodeUtf8 name.toList).length ≤ maxName) :
    disk.locate path = .ok (steps path, tree) := by
  have present : path.isEmpty = false := by
    simpa [String.isEmpty_iff] using ne_empty_of_isAbsolute down.rooted
  have fits : ∀ name ∈ components path, (Text.encodeUtf8 name.toList).length ≤ maxName := by
    intro name member
    by_cases kept : moves name = true
    · exact short name (steps_eq_filter path ▸ List.mem_filter.mpr ⟨member, kept⟩)
    · have stays : name = "" ∨ name = "." := by simpa [moves, or_iff_not_imp_left] using kept
      rcases stays with rfl | rfl <;> decide
  rw [steps_eq_filter] at there ⊢
  obtain ⟨last, run, way⟩ := follow_straight down.straight [] there isDir fits
  refine locate_eq_ok.mpr ⟨present, last, ?_, way.symm⟩
  rw [joinPath_of_isAbsolute down.rooted]
  exact run

end Disk

end Files

end CallAtlas
