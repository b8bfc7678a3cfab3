import CallAtlas.Project.SourceLocator
import CallAtlas.Proofs.NormalPaths

/-!
The root of a project: of the directories above a file, the nearest of the first ten that holds a
marker. The search looks at them from below, and a question that the file system refuses to answer
ends it.
-/

namespace CallAtlas

open Project

section Asking

variable {ε α : Type}

/-- `x` is in the list, and all that stand before it pass. -/
def FirstPast (passes : α → Prop) (xs : List α) (x : α) : Prop :=
  ∃ before after, xs = before ++ x :: after ∧ ∀ y ∈ before, passes y

variable {passes : α → Prop} {x y : α} {xs : List α}

theorem FirstPast.mem (first : FirstPast passes xs x) : x ∈ xs := by
  obtain ⟨before, after, rfl, _⟩ := first
  exact List.mem_append_right _ List.mem_cons_self

theorem not_firstPast_nil : ¬ FirstPast passes [] x := by
  intro first
  exact List.not_mem_nil first.mem

theorem firstPast_cons : FirstPast passes (y :: xs) x ↔ x = y ∨ passes y ∧
    FirstPast passes xs x := by
  constructor
  · rintro ⟨before, after, split, all⟩
    cases before with
    | nil =>
      cases split
      exact .inl rfl
    | cons z before =>
      cases split
      rw [List.forall_mem_cons] at all
      exact .inr ⟨all.1, before, after, rfl, all.2⟩
  · rintro (rfl | ⟨here, before, after, rfl, all⟩)
    · exact ⟨[], xs, rfl, by simp⟩
    · exact ⟨y :: before, after, rfl, List.forall_mem_cons.mpr ⟨here, all⟩⟩

theorem FirstPast.congr {passes' : α → Prop} (same : ∀ y, passes y ↔ passes' y) :
    FirstPast passes xs x ↔ FirstPast passes' xs x := by
  rw [funext fun y => propext (same y)]

variable {ask : α → Except ε Bool}

theorem firstOf_cons (ask : α → Except ε Bool) (x : α) (rest : List α) : firstOf ask (x :: rest) =
    match ask x with
    | .error e => .error e
    | .ok true => .ok (some x)
    | .ok false => firstOf ask rest := by
  rw [firstOf]
  cases ask x with
  | error e => rfl
  | ok answer => cases answer <;> rfl

theorem firstOf_eq_some : firstOf ask xs = .ok (some x) ↔
    FirstPast (fun y => ask y = .ok false) xs x ∧ ask x = .ok true := by
  induction xs with
  | nil => simp [firstOf, not_firstPast_nil]
  | cons y rest ih =>
    rw [firstOf_cons, firstPast_cons]
    cases answer : ask y with
    | error e =>
      simp only [reduceCtorEq, false_and, or_false, false_iff, not_and]
      rintro rfl
      simp [answer]
    | ok yes =>
      cases yes with
      | true =>
        simp only [Except.ok.injEq, Option.some.injEq, Bool.true_eq_false, false_and, or_false]
        constructor
        · rintro rfl
          exact ⟨rfl, answer⟩
        · rintro ⟨rfl, _⟩
          rfl
      | false =>
        simp only [true_and, ih]
        constructor
        · rintro ⟨first, found⟩
          exact ⟨.inr first, found⟩
        · rintro ⟨rfl | first, found⟩
          · rw [answer] at found
            cases found
          · exact ⟨first, found⟩

theorem firstOf_eq_none : firstOf ask xs = .ok none ↔ ∀ x ∈ xs, ask x = .ok false := by
  induction xs with
  | nil => simp [firstOf]
  | cons y rest ih =>
    rw [firstOf_cons, List.forall_mem_cons]
    cases ask y with
    | error e => simp
    | ok yes => cases yes <;> simp [ih]

theorem firstOf_eq_error {e : ε} :
    firstOf ask xs = .error e ↔ ∃ x, FirstPast (fun y => ask y = .ok false) xs x ∧
    ask x = .error e := by
  induction xs with
  | nil => simp [firstOf, not_firstPast_nil]
  | cons y rest ih =>
    simp only [firstOf_cons, firstPast_cons]
    cases answer : ask y with
    | error e' => simp [answer]
    | ok yes => cases yes <;> simp [answer, ih]

theorem firstOf_eq_find? {answer : α → Bool} (answered : ∀ x ∈ xs, ask x = .ok (answer x)) :
    firstOf ask xs = .ok (xs.find? answer) := by
  induction xs with
  | nil => rfl
  | cons x rest ih =>
    rw [List.forall_mem_cons] at answered
    rw [firstOf_cons, answered.1, List.find?_cons, ih answered.2]
    cases answer x <;> rfl

end Asking

namespace Files

namespace Route

theorem parent_eq_self_iff {route : Route} : route.parent = route ↔ route.parts = [] := by
  obtain ⟨root, parts⟩ := route
  rw [parent, Route.mk.injEq]
  constructor
  · rintro ⟨_, same⟩
    have shorter := congrArg List.length same
    rw [List.length_dropLast] at shorter
    cases parts with
    | nil => rfl
    | cons part rest => simp at shorter
  · intro empty
    simp only at empty
    simp [empty]

theorem upward_of_root {route : Route} (empty : route.parts = []) : route.upward = [route] := by
  obtain ⟨root, parts⟩ := route
  simp only at empty
  rw [empty]
  rfl

theorem upward_of_deeper {route : Route} (deeper : route.parts ≠ []) :
    route.upward = route :: route.parent.upward := by
  obtain ⟨root, parts⟩ := route
  simp only at deeper
  obtain ⟨before, name, rfl⟩ : ∃ before name, parts = before ++ [name] :=
    ⟨_, _, (List.dropLast_append_getLast deeper).symm⟩
  rw [upward, List.length_append, List.length_singleton, List.range_succ, List.reverse_append,
    List.reverse_singleton, List.singleton_append, List.map_cons]
  have whole : (before ++ [name]).take (before.length + 1) = before ++ [name] :=
    List.take_of_length_le (by simp)
  rw [whole, parent, upward, List.dropLast_concat]
  congr 1
  apply List.map_congr_left
  intro count member
  have short : count ≤ before.length := by
    have bound := List.mem_range.mp (List.mem_reverse.mp member)
    omega
  rw [List.take_append_of_le_length short]

theorem mem_upward {route dir : Route} (member : dir ∈ route.upward) : dir.root = route.root ∧
    dir.parts ⊆ route.parts := by
  obtain ⟨count, _, rfl⟩ := List.mem_map.mp member
  exact ⟨rfl, List.take_subset count route.parts⟩

theorem root_resolve (cwd path : String) : (resolve cwd path).root = "/" := by
  simp only [resolve]

theorem parts_resolve (cwd path : String) :
    (resolve cwd path).parts = steps (absolute cwd path) := by
  simp only [resolve, steps]

theorem resolve_of_downward {path : String} (down : Downward path) (cwd : String) :
    resolve cwd path = ⟨"/", steps path⟩ := by
  have same : steps (normalize path) = steps path := by
    rw [steps_normalize down.rooted, foldl_pushPart_straight down.straight, List.append_nil,
      List.reverse_reverse, steps_eq_filter]
  have parts : (resolve cwd path).parts = steps path := by
    rw [parts_resolve, absolute, joinPath_of_isAbsolute down.rooted, same]
  rw [← parts, resolve]

end Route

theorem Disk.exists?_of_refused {disk : Disk} {path : String}
    (refused : disk.find path = .error .nameTooLong) :
    disk.exists? path = .error ⟨.nameTooLong, path⟩ := by
  rw [exists?, ask, refused]
  split <;> rfl

end Files

namespace Project

open Files

section Roots

variable {ε : Type} {there : String → Except ε Bool} {markers : List String} {dir : Route}

def Unmarked (there : String → Except ε Bool) (markers : List String) (dir : Route) : Prop :=
  ∀ marker ∈ markers, there (markerPath dir marker) = .ok false

def Marked (there : String → Except ε Bool) (markers : List String) (dir : Route) : Prop :=
  ∃ marker, FirstPast (fun other => there (markerPath dir other) = .ok false) markers marker ∧
    there (markerPath dir marker) = .ok true

/-- For one of the markers the system refuses to answer, and for those before it the answer is
no. -/
def Barred (there : String → Except ε Bool) (markers : List String) (dir : Route) (e : ε) : Prop :=
  ∃ marker, FirstPast (fun other => there (markerPath dir other) = .ok false) markers marker ∧
    there (markerPath dir marker) = .error e

theorem holdsAny_eq (there : String → Except ε Bool) (dir : Route) (markers : List String) :
    holdsAny there dir markers =
    (firstOf (fun marker => there (markerPath dir marker)) markers).map Option.isSome := by
  rw [holdsAny]
  cases firstOf (fun marker => there (markerPath dir marker)) markers <;> rfl

theorem holdsAny_eq_false : holdsAny there dir markers = .ok false ↔
    Unmarked there markers dir := by
  rw [holdsAny_eq, Unmarked, ← firstOf_eq_none]
  cases firstOf (fun marker => there (markerPath dir marker)) markers with
  | error e => simp [Except.map]
  | ok found => simp [Except.map]

theorem holdsAny_eq_true : holdsAny there dir markers = .ok true ↔ Marked there markers dir := by
  simp only [Marked, ← firstOf_eq_some, holdsAny_eq]
  cases firstOf (fun marker => there (markerPath dir marker)) markers with
  | error e => simp [Except.map]
  | ok found => simp [Except.map, Option.isSome_iff_exists]

theorem holdsAny_eq_error {e : ε} : holdsAny there dir markers = .error e ↔
    Barred there markers dir e := by
  rw [holdsAny_eq, Barred, ← firstOf_eq_error]
  cases firstOf (fun marker => there (markerPath dir marker)) markers with
  | error e' => simp [Except.map]
  | ok found => simp [Except.map]

theorem holdsAny_of_answered {answer : String → Bool}
    (answered : ∀ marker ∈ markers, there (markerPath dir marker) =
      .ok (answer (markerPath dir marker))) :
    holdsAny there dir markers =
    .ok (markers.any fun marker => answer (markerPath dir marker)) := by
  rw [holdsAny_eq, firstOf_eq_find? answered, Except.map, List.isSome_find?]

/-- The search goes through the first directories of the chain: it stops at the root, which lies in
itself. -/
theorem rootAbove_eq (there : String → Except ε Bool) (markers : List String) (depth : Nat)
    (dir : Route) :
    rootAbove there markers depth dir = firstOf (fun dir => holdsAny there dir markers)
    (dir.upward.take depth) := by
  induction depth generalizing dir with
  | zero => rfl
  | succ depth ih =>
    rw [rootAbove]
    by_cases top : dir.parts = []
    · rw [Route.upward_of_root top, List.take_succ_cons, List.take_nil, firstOf_cons,
        if_pos (Route.parent_eq_self_iff.mpr top)]
      cases holdsAny there dir markers with
      | error e => rfl
      | ok yes => cases yes <;> rfl
    · rw [Route.upward_of_deeper top, List.take_succ_cons, firstOf_cons,
        if_neg fun same => top (Route.parent_eq_self_iff.mp same), ih]
      cases holdsAny there dir markers with
      | error e => rfl
      | ok yes => cases yes <;> rfl

theorem projectRoot_eq (there : String → Except ε Bool) (cwd : String) (markers : List String)
    {path : String} (down : Downward path) : projectRoot there cwd markers path =
      firstOf (fun dir => holdsAny there dir markers)
      ((Route.mk "/" (steps path)).parent.upward.take 10) := by
  rw [projectRoot, Route.resolve_of_downward down, rootAbove_eq]
  rfl

theorem projectRoot_plain {cwd path : String} {root : Route} (rooted : isAbsolute cwd = true)
    (found : projectRoot there cwd markers path = .ok (some root)) :
    root.root = "/" ∧ ∀ name ∈ root.parts, PlainName name := by
  rw [projectRoot, rootAbove_eq, firstOf_eq_some] at found
  obtain ⟨top, parts⟩ := Route.mem_upward (List.mem_of_mem_take found.1.mem)
  rw [Route.parent, Route.parts_resolve, absolute,
    steps_normalize (isAbsolute_joinPath rooted path)] at parts
  rw [Route.parent, Route.root_resolve] at top
  refine ⟨top, ?_⟩
  intro name member
  have kept := (List.dropLast_sublist _).subset (parts member)
  exact normalParts_plain (joinPath cwd path) name kept

/-- Whatever a file system answers, the root of a project is the nearest directory above that holds
a marker, among the first ten of the chain up to the root of the file system, and there is none if
these hold none. The search fails where the system refuses to answer before a marker is found, and
only there. -/
theorem projectRoot_nearest (there : String → Except ε Bool) (cwd : String) (markers : List String)
    {path : String} (down : Downward path) :
    let chain := (Route.mk "/" (steps path)).parent.upward
    (∀ answer : String → Bool,
      (∀ dir ∈ chain.take 10, ∀ marker ∈ markers,
        there (markerPath dir marker) = .ok (answer (markerPath dir marker))) →
      projectRoot there cwd markers path =
        .ok ((chain.take 10).find? fun dir => markers.any fun marker =>
          answer (markerPath dir marker))) ∧
    (∀ dir, projectRoot there cwd markers path = .ok (some dir) ↔
      FirstPast (Unmarked there markers) (chain.take 10) dir ∧ Marked there markers dir) ∧
    (projectRoot there cwd markers path = .ok none ↔
      ∀ dir ∈ chain.take 10, Unmarked there markers dir) ∧
    ∀ e, projectRoot there cwd markers path = .error e ↔
      ∃ dir, FirstPast (Unmarked there markers) (chain.take 10) dir ∧
        Barred there markers dir e := by
  intro chain
  rw [projectRoot_eq there cwd markers down]
  refine ⟨?_, ?_, ?_, ?_⟩
  · intro answer answered
    exact firstOf_eq_find? fun dir member => holdsAny_of_answered (answered dir member)
  · intro dir
    rw [firstOf_eq_some, holdsAny_eq_true, FirstPast.congr fun _ => holdsAny_eq_false]
  · rw [firstOf_eq_none]
    exact forall₂_congr fun _ _ => holdsAny_eq_false
  · intro e
    rw [firstOf_eq_error]
    apply exists_congr
    intro dir
    rw [holdsAny_eq_error, FirstPast.congr fun _ => holdsAny_eq_false]

end Roots

def markedTop : Disk := { root := .dir [("m", .file [])] }

theorem projectRoot_nearest_tenth :
    Downward "/1/2/3/4/5/6/7/8/9/x" ∧ Downward "/0/1/2/3/4/5/6/7/8/9/x" ∧
      FirstPast (Unmarked markedTop.exists? ["m"])
        ((Route.mk "/" (steps "/1/2/3/4/5/6/7/8/9/x")).parent.upward.take 10) ⟨"/", []⟩ ∧
      Marked markedTop.exists? ["m"] ⟨"/", []⟩ ∧
      projectRoot markedTop.exists? "/" ["m"] "/0/1/2/3/4/5/6/7/8/9/x" =
        .ok (((Route.mk "/" (steps "/0/1/2/3/4/5/6/7/8/9/x")).parent.upward.take 10).find?
          fun dir => ["m"].any fun marker => decide (markerPath dir marker = "/m")) ∧
      ∀ dir ∈ (Route.mk "/" (steps "/0/1/2/3/4/5/6/7/8/9/x")).parent.upward.take 10,
        Unmarked markedTop.exists? ["m"] dir := by
  have ten : Downward "/1/2/3/4/5/6/7/8/9/x" := ⟨by decide, by decide⟩
  have eleven : Downward "/0/1/2/3/4/5/6/7/8/9/x" := ⟨by decide, by decide⟩
  obtain ⟨first, marked⟩ :=
    ((projectRoot_nearest markedTop.exists? "/" ["m"] ten).2.1 ⟨"/", []⟩).mp (by decide +kernel)
  obtain ⟨answers, _, unfound, _⟩ := projectRoot_nearest markedTop.exists? "/" ["m"] eleven
  exact ⟨ten, eleven, first, marked, answers (fun path => decide (path = "/m")) (by decide +kernel),
    unfound.mp (by decide +kernel)⟩

def longName : String := String.ofList (List.replicate 256 'x')

theorem longName_chars : longName.toList = List.replicate 256 'x' := String.toList_ofList

theorem longName_plain : PlainName longName := by
  have size : longName.toList.length = 256 := by rw [longName_chars, List.length_replicate]
  have apart (name : String) (short : name.toList.length ≠ 256) : longName ≠ name := by
    rintro rfl
    exact short size
  refine ⟨apart "" (by decide), apart "." (by decide), apart ".." (by decide), ?_⟩
  rw [longName_chars]
  intro member
  exact absurd (List.eq_of_mem_replicate member) (by decide)

def markedProject : Disk := { root := .dir [("p", .dir [("pom.xml", .file [])])] }

theorem markedProject_find {marker : String} (plain : PlainName marker) :
    markedProject.find (markerPath ⟨"/", ["p", longName]⟩ marker) = .error .nameTooLong := by
  have place : markerPath ⟨"/", ["p", longName]⟩ marker =
      Route.toPath ⟨"/", ["p", longName, marker]⟩ := by
    rw [markerPath, Route.append, Route.ofPath_of_noSlash plain.noSlash, List.filter_singleton,
      moves_of_plain plain]
    rfl
  have names : ∀ name ∈ ["p", longName, marker], PlainName name := by
    simp only [List.forall_mem_cons]
    exact ⟨by decide, longName_plain, plain, by simp⟩
  have rooted := Route.rooted_of_plain names
  have parts : components (Route.toPath ⟨"/", ["p", longName, marker]⟩) =
      ["", "p", longName, marker] := by
    have whole : Route.toPath ⟨"/", ["p", longName, marker]⟩ =
        "" ++ "/" ++ ("p" ++ "/" ++ (longName ++ "/" ++ marker)) := by
      rw [rooted.toPath_eq, String.intercalate_cons_cons, String.intercalate_cons_cons,
        String.intercalate_singleton]
      rfl
    rw [whole, components_append, components_append, components_append,
      components_plain longName_plain.noSlash, components_plain plain.noSlash]
    rfl
  have long :
      FileTree.maxName < (Text.encodeUtf8 (List.replicate 256 'x')).length := by decide +kernel
  have run : markedProject.root.follow [] ["", "p", longName, marker] = .error .nameTooLong := by
    have found : FileTree.child markedProject.root "p" = .ok (.dir [("pom.xml", .file [])]) := rfl
    have stop : FileTree.child (.dir [("pom.xml", .file [])]) longName = .error .nameTooLong := by
      rw [FileTree.child, longName_chars, if_pos long]
    have top : markedProject.root.isDir = true := rfl
    have inner : (FileTree.dir [("pom.xml", .file [])]).isDir = true := rfl
    simp [FileTree.follow_cons, found, stop, top, inner, longName_plain.nonempty,
      longName_plain.notHere, longName_plain.notAbove]
  have nonempty : (Route.toPath ⟨"/", ["p", longName, marker]⟩).isEmpty = false := by
    simpa [String.isEmpty_iff] using ne_empty_of_isAbsolute rooted.isAbsolute_toPath
  rw [place, Disk.find, Disk.locate, nonempty,
    joinPath_of_isAbsolute rooted.isAbsolute_toPath, parts, run]
  rfl

/-- The nearest directory that holds a marker is not found from below a name that is too long: the
search fails there. -/
theorem projectRoot_barred :
    Downward (Route.toPath ⟨"/", ["p", longName, "A.class"]⟩) ∧
      (Route.mk "/"
        (steps (Route.toPath ⟨"/", ["p", longName, "A.class"]⟩))).parent.upward.take 10 =
          [⟨"/", ["p", longName]⟩, ⟨"/", ["p"]⟩, ⟨"/", []⟩] ∧
      (∀ marker ∈ buildFiles, ¬ ∃ tree,
        markedProject.find (markerPath ⟨"/", ["p", longName]⟩ marker) = .ok tree) ∧
      markedProject.exists? (markerPath ⟨"/", ["p"]⟩ "pom.xml") = .ok true ∧
      projectRoot markedProject.exists? "/" buildFiles
        (Route.toPath ⟨"/", ["p", longName, "A.class"]⟩) =
        .error ⟨.nameTooLong, markerPath ⟨"/", ["p", longName]⟩ "pom.xml"⟩ := by
  have names : ∀ name ∈ ["p", longName, "A.class"], PlainName name := by
    simp only [List.forall_mem_cons]
    exact ⟨by decide, longName_plain, by decide, by simp⟩
  have plain : ∀ marker ∈ buildFiles, PlainName marker := by
    simp only [buildFiles, List.forall_mem_cons]
    exact ⟨by decide, by decide, by decide, by simp⟩
  have down := Route.downward_toPath names
  have chain :
      (Route.mk "/"
        (steps (Route.toPath ⟨"/", ["p", longName, "A.class"]⟩))).parent.upward.take 10 =
          [⟨"/", ["p", longName]⟩, ⟨"/", ["p"]⟩, ⟨"/", []⟩] := by
    rw [(Route.rooted_of_plain names).steps_toPath]
    rfl
  refine ⟨down, chain, ?_, by decide +kernel, ?_⟩
  · rintro marker member ⟨tree, found⟩
    cases found.symm.trans (markedProject_find (plain marker member))
  · rw [projectRoot_eq _ _ _ down, chain, firstOf_eq_error]
    refine ⟨_, firstPast_cons.mpr (.inl rfl),
      holdsAny_eq_error.mpr ⟨"pom.xml", firstPast_cons.mpr (.inl rfl), ?_⟩⟩
    exact Disk.exists?_of_refused (markedProject_find (plain _ List.mem_cons_self))

end Project

end CallAtlas
