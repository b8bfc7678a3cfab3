import CallAtlas.Proofs.ClassFileDiscovery
import CallAtlas.Proofs.ProjectRoots

/-!
Which sources lie below the root of their project: those that the name noted in the class file does
not lead out of it. An absolute name stands for itself, and a name with more `..` than there are
directories to leave goes above the root.
-/

namespace CallAtlas

namespace Files

def Extends (front way : List String) : Prop := front <+: way ∧ front ≠ way

instance (front way : List String) : Decidable (Extends front way) :=
  inferInstanceAs (Decidable (_ ∧ _))

/-- `path` lies below `dir`, every `.` and `..` of both being taken. -/
def Below (dir path : String) : Prop :=
  isAbsolute path = true ∧ Extends (steps (normalize dir)) (steps (normalize path))

instance (dir path : String) : Decidable (Below dir path) := inferInstanceAs (Decidable (_ ∧ _))

theorem extends_append {front more : List String} : Extends front (front ++ more) ↔ more ≠ [] := by
  rw [Extends, and_iff_right (List.prefix_append front more), ne_eq, ne_eq,
    List.self_eq_append_right]

theorem extends_append_append {front way more : List String} : Extends (front ++ way)
    (front ++ more) ↔ Extends way more := by
  rw [Extends, Extends, List.prefix_append_right_inj, ne_eq, ne_eq, List.append_cancel_left_eq]

/-- Where parts lead from a directory: so many directories up, and down from there by names. -/
structure Detour where
  up : Nat
  down : List String

namespace Detour

def step (detour : Detour) (part : String) : Detour :=
  if part ≠ ".." then ⟨detour.up, detour.down ++ [part]⟩
  else if detour.down = [] then ⟨detour.up + 1, []⟩
  else ⟨detour.up, detour.down.dropLast⟩

def ofParts (parts : List String) : Detour := parts.foldl step ⟨0, []⟩

def reach (detour : Detour) (base : List String) : List String :=
  base.take (base.length - detour.up) ++ detour.down

variable {detour : Detour} {base parts : List String} {part : String}

theorem step_straight (straight : ".." ∉ detour.down) (part : String) :
    ".." ∉ (detour.step part).down := by
  unfold step
  split
  · rename_i down
    rw [List.mem_append, List.mem_singleton, not_or]
    exact ⟨straight, Ne.symm down⟩
  · split
    · exact List.not_mem_nil
    · exact fun member => straight ((List.dropLast_sublist _).subset member)

theorem pushPart_reach (plain : ".." ∉ base) (straight : ".." ∉ detour.down)
    (moving : moves part = true) :
    pushPart true (detour.reach base).reverse part = ((detour.step part).reach base).reverse := by
  unfold step
  split
  · rename_i down
    rw [pushPart_down moving down, reach, reach, ← List.append_assoc, List.reverse_concat]
  · rename_i up
    obtain rfl := not_not.mp up
    have all : ".." ∉ (detour.reach base).reverse := by
      rw [List.mem_reverse, reach, List.mem_append, not_or]
      exact ⟨fun member => plain (List.mem_of_mem_take member), straight⟩
    rw [pushPart_up all, List.tail_reverse]
    split
    · rename_i empty
      have count : min (min (base.length - detour.up) base.length - 1) (base.length - detour.up) =
          base.length - (detour.up + 1) := by omega
      rw [reach, reach, empty, List.append_nil, List.append_nil, List.dropLast_eq_take,
        List.length_take, List.take_take, count]
    · rename_i present
      rw [reach, reach, List.dropLast_append_of_ne_nil present]

theorem foldl_pushPart_reach (plain : ".." ∉ base) (straight : ".." ∉ detour.down)
    (moving : ∀ part ∈ parts, moves part = true) :
    parts.foldl (pushPart true)
    (detour.reach base).reverse = ((parts.foldl step detour).reach base).reverse := by
  induction parts generalizing detour with
  | nil => rfl
  | cons part rest ih =>
    rw [List.forall_mem_cons] at moving
    rw [List.foldl_cons, List.foldl_cons, pushPart_reach plain straight moving.1,
      ih (step_straight straight part) moving.2]

theorem foldl_pushPart_eq (plain : ".." ∉ base) (moving : ∀ part ∈ parts, moves part = true) :
    parts.foldl (pushPart true) base.reverse = ((ofParts parts).reach base).reverse := by
  have start : (Detour.mk 0 []).reach base = base := by simp [reach]
  rw [ofParts, ← foldl_pushPart_reach plain List.not_mem_nil moving, start]

theorem ofParts_of_straight (straight : ".." ∉ parts) : ofParts parts = ⟨0, parts⟩ := by
  have run (front : List String) : parts.foldl step ⟨0, front⟩ = ⟨0, front ++ parts⟩ := by
    induction parts generalizing front with
    | nil => rw [List.append_nil]; rfl
    | cons part rest ih =>
      rw [List.mem_cons, not_or] at straight
      rw [List.foldl_cons, step, if_pos (Ne.symm straight.1), ih straight.2, List.append_assoc,
        List.singleton_append]
  exact run []

/-- From some directories below a place, a detour ends below the place if it does not leave all of
them, or if it goes above the place and comes back by the names that lead there. -/
theorem extends_reach_iff {names dirs : List String} :
    Extends names (detour.reach (names ++ dirs)) ↔
    detour.up < dirs.length ∨
    Extends (names.drop (names.length - (detour.up - dirs.length))) detour.down := by
  rw [reach, List.length_append]
  -- Either one of `dirs` is left, or all of them are gone and so many names of the place itself.
  by_cases shallow : detour.up < dirs.length
  · have count : names.length + dirs.length - detour.up =
        names.length + (dirs.length - detour.up) := by omega
    have some : dirs.take (dirs.length - detour.up) ≠ [] := by
      intro empty
      have length := congrArg List.length empty
      rw [List.length_take, List.length_nil] at length
      omega
    rw [count, List.take_length_add_append, List.append_assoc, extends_append]
    simp [shallow, some]
  · have count : names.length + dirs.length - detour.up =
        names.length - (detour.up - dirs.length) := by omega
    rw [count, List.take_append_of_le_length (Nat.sub_le _ _), or_iff_right shallow]
    nth_rewrite 1 [← List.take_append_drop (names.length - (detour.up - dirs.length)) names]
    exact extends_append_append

end Detour

namespace Route

def join (route way : Route) : Route :=
  if way.root.isEmpty then ⟨route.root, route.parts ++ way.parts⟩ else way

theorem append_eq_join (route : Route) (path : String) :
    route.append path = route.join (ofPath path) := rfl

theorem join_assoc (route way more : Route) :
    (route.join way).join more = route.join (way.join more) := by
  unfold join
  by_cases relative : more.root.isEmpty = true
  · by_cases below : way.root.isEmpty = true
    · simp [relative, below]
    · simp [relative, below]
  · simp [relative]

theorem empty_join (way : Route) : join ⟨"", []⟩ way = way := by
  unfold join
  split
  · rename_i relative
    rw [String.isEmpty_iff] at relative
    rw [List.nil_append, ← relative]
  · rfl

theorem foldl_append_eq_join (route : Route) (paths : List String) :
    paths.foldl append route = route.join (paths.foldl append ⟨"", []⟩) := by
  induction paths generalizing route with
  | nil => simp [join]
  | cons path rest ih =>
    rw [List.foldl_cons, List.foldl_cons, ih, ih (append _ path), append_eq_join, append_eq_join,
      empty_join, join_assoc]

theorem foldl_append_of_noSlash {names : List String} (noSlash : ∀ name ∈ names, '/' ∉ name.toList)
    (route : Route) :
    names.foldl append route = ⟨route.root, route.parts ++ names.filter moves⟩ := by
  induction names generalizing route with
  | nil => simp
  | cons name rest ih =>
    rw [List.forall_mem_cons] at noSlash
    rw [List.foldl_cons, ih noSlash.2, append_eq_join, ofPath_of_noSlash noSlash.1, join,
      List.filter_cons]
    by_cases moving : moves name = true
    · simp [moving]
    · simp [moving]

theorem Clean.append {route : Route} (clean : route.Clean) (path : String) :
    (route.append path).Clean := by
  rw [append_eq_join, join]
  have more := clean_ofPath path
  split
  · constructor
    · exact List.forall_mem_append.mpr ⟨clean.noSlash, more.noSlash⟩
    · exact List.forall_mem_append.mpr ⟨clean.moving, more.moving⟩
  · exact more

theorem Clean.foldl_append {route : Route} (clean : route.Clean) (paths : List String) :
    (paths.foldl Route.append route).Clean := by
  induction paths generalizing route with
  | nil => exact clean
  | cons path rest ih => exact ih (clean.append path)

end Route

end Files

namespace Project

open Files ClassFile

def sourceWay (type : CompiledType) : Route :=
  (packageParts type ++ [sourceName type]).foldl Route.append ⟨"", []⟩

def sourcePath (type : CompiledType) (root : Route) (dirs : List String) : String :=
  ((dirs ++ packageParts type ++ [sourceName type]).foldl Route.append root).toPath

theorem sourceCandidates_eq (type : CompiledType) (root : Route) :
    sourceCandidates type root = sourceRoots.map (sourcePath type root) := rfl

theorem sourceRoots_plain : ∀ dirs ∈ sourceRoots, ∀ dir ∈ dirs, PlainName dir := by
  simp only [sourceRoots, List.forall_mem_cons]
  exact ⟨⟨by decide, by decide, by decide, by simp⟩, ⟨by decide, by simp⟩, by simp⟩

variable {type : CompiledType} {rootPath : String} {dirs : List String}

theorem sourcePath_eq (plain : ∀ dir ∈ dirs, PlainName dir) (type : CompiledType) (root : Route) :
    sourcePath type root dirs =
    (Route.join ⟨root.root, root.parts ++ dirs⟩ (sourceWay type)).toPath := by
  have moving : dirs.filter moves = dirs :=
    List.filter_eq_self.mpr fun dir member => moves_of_plain (plain dir member)
  rw [sourcePath, List.append_assoc, List.foldl_append, Route.foldl_append_eq_join,
    Route.foldl_append_of_noSlash fun dir member => (plain dir member).noSlash, moving, sourceWay]

/-- The conditions under which a way from the directory `dirs` of a project leads below the root of
the project: it does not leave `dirs`, or it goes above the root and comes back, or it starts from
the root of the file system. -/
inductive Stays (rootPath : String) (dirs : List String) (way : Route) : Prop where
  | within (relative : way.root = "") (shallow : (Detour.ofParts way.parts).up < dirs.length)
  | back (relative : way.root = "")
      (returns : Extends ((steps (normalize rootPath)).drop
        ((steps (normalize rootPath)).length - ((Detour.ofParts way.parts).up - dirs.length)))
          (Detour.ofParts way.parts).down)
  | elsewhere (rooted : way.root ≠ "") (below : Below rootPath way.toPath)

theorem steps_sourcePath (rooted : isAbsolute rootPath = true) (plain : ∀ dir ∈ dirs, PlainName dir)
    (relative : (sourceWay type).root = "") :
    isAbsolute (sourcePath type (Route.ofPath rootPath) dirs) = true ∧
    steps (normalize (sourcePath type (Route.ofPath rootPath) dirs)) =
      (Detour.ofParts (sourceWay type).parts).reach (steps (normalize rootPath) ++ dirs) := by
  let root := Route.ofPath rootPath
  have above : root.Rooted := Route.rooted_ofPath rooted
  have clean : (sourceWay type).Clean := Route.Clean.foldl_append ⟨by simp, by simp⟩ _
  have whole : Route.Rooted ⟨root.root, root.parts ++ dirs ++ (sourceWay type).parts⟩ := by
    refine ⟨⟨?_, ?_⟩, above.root⟩
    · exact List.forall_mem_append.mpr ⟨List.forall_mem_append.mpr
        ⟨above.noSlash, fun dir member => (plain dir member).noSlash⟩, clean.noSlash⟩
    · exact List.forall_mem_append.mpr ⟨List.forall_mem_append.mpr
        ⟨above.moving, fun dir member => moves_of_plain (plain dir member)⟩, clean.moving⟩
  have place :
      sourcePath type root dirs =
      Route.toPath ⟨root.root, root.parts ++ dirs ++ (sourceWay type).parts⟩ := by
    rw [sourcePath_eq plain, Route.join, if_pos (String.isEmpty_iff.mpr relative)]
  have straight : ".." ∉ steps (normalize rootPath) ++ dirs := by
    rw [List.mem_append, not_or, steps_normalize rooted]
    exact ⟨fun member => (normalParts_plain rootPath _ member).notAbove rfl,
      fun member => (plain _ member).notAbove rfl⟩
  have start : dirs.foldl (pushPart true) (root.parts.foldl (pushPart true) []) =
      (steps (normalize rootPath) ++ dirs).reverse := by
    have moving : dirs.filter moves = dirs :=
      List.filter_eq_self.mpr fun dir member => moves_of_plain (plain dir member)
    rw [foldl_pushPart_straight fun member => (plain _ member).notAbove rfl, moving,
      List.reverse_append, steps_normalize_eq rooted, List.reverse_reverse, steps]
  rw [place]
  refine ⟨whole.isAbsolute_toPath, ?_⟩
  rw [steps_normalize_eq whole.isAbsolute_toPath, whole.steps_toPath, List.foldl_append,
    List.foldl_append, start, Detour.foldl_pushPart_eq straight clean.moving, List.reverse_reverse]

theorem below_sourcePath_iff (rooted : isAbsolute rootPath = true)
    (plain : ∀ dir ∈ dirs, PlainName dir) (type : CompiledType) :
    Below rootPath (sourcePath type (Route.ofPath rootPath) dirs) ↔
    Stays rootPath dirs (sourceWay type) := by
  by_cases relative : (sourceWay type).root = ""
  · obtain ⟨absolute, names⟩ := steps_sourcePath rooted plain relative
    rw [Below, and_iff_right absolute, names, Detour.extends_reach_iff]
    constructor
    · rintro (shallow | returns)
      · exact .within relative shallow
      · exact .back relative returns
    · intro stays
      cases stays with
      | within _ shallow => exact .inl shallow
      | back _ returns => exact .inr returns
      | elsewhere absolute _ => exact absurd relative absolute
  · have place : sourcePath type (Route.ofPath rootPath) dirs = (sourceWay type).toPath := by
      rw [sourcePath_eq plain, Route.join, if_neg (by rwa [String.isEmpty_iff])]
    rw [place]
    constructor
    · intro below
      exact .elsewhere relative below
    · intro stays
      cases stays with
      | within empty _ => exact absurd empty relative
      | back empty _ => exact absurd empty relative
      | elsewhere _ below => exact below

theorem sourceName_cases (type : CompiledType) : type.sourceFile = some (sourceName type) ∨
    sourceName type = sourceName.topName type := by
  unfold sourceName
  split
  · rename_i name noted
    split
    · exact .inr rfl
    · exact .inl noted
  · exact .inr rfl

variable (named : '/' ∉ type.name.toList)
  (noted : ∀ name, type.sourceFile = some name → '/' ∉ name.toList ∧ name ≠ "..")

include named

theorem packageParts_plain : ∀ part ∈ packageParts type, '/' ∉ part.toList ∧ part ≠ ".." := by
  unfold packageParts
  split
  · simp
  · intro part member
    obtain ⟨chars, present, rfl⟩ := List.mem_map.mp member
    rw [String.toList_ofList]
    have package : type.package.toList = Text.beforeLast '.' type.name.toList := by
      rw [CompiledType.package, packageName, String.toList_ofList]
    obtain ⟨noDot, inside⟩ := Text.mem_splitAtEach present
    constructor
    · intro slash
      have kept := inside slash
      rw [package] at kept
      exact Text.notMem_beforeLast_of_notMem named kept
    · intro same
      apply noDot
      rw [← String.toList_ofList (l := chars), same]
      decide

include noted

theorem sourceName_plain : '/' ∉ (sourceName type).toList ∧ sourceName type ≠ ".." := by
  rcases sourceName_cases type with noting | top
  · exact noted _ noting
  · rw [top, sourceName.topName]
    constructor
    · intro slash
      rw [String.toList_append, String.toList_ofList, List.mem_append] at slash
      rcases slash with before | ending
      · have inside := (List.takeWhile_prefix _).subset before
        rw [CompiledType.simpleName, simpleName, String.toList_ofList] at inside
        exact Text.notMem_afterLast_of_notMem named inside
      · exact absurd ending (by decide)
    · intro same
      have length := congrArg (fun text => text.toList.length) same
      simp at length

theorem stays_of_plain (rootPath : String) (present : dirs ≠ []) :
    Stays rootPath dirs (sourceWay type) := by
  have plain : ∀ name ∈ packageParts type ++ [sourceName type], '/' ∉ name.toList ∧ name ≠ ".." :=
    List.forall_mem_append.mpr
      ⟨packageParts_plain named, List.forall_mem_singleton.mpr (sourceName_plain named noted)⟩
  have way : sourceWay type = ⟨"", (packageParts type ++ [sourceName type]).filter moves⟩ := by
    rw [sourceWay, Route.foldl_append_of_noSlash fun name member => (plain name member).1,
      List.nil_append]
  have straight : ".." ∉ (packageParts type ++ [sourceName type]).filter moves :=
    fun member => (plain _ (List.mem_of_mem_filter member)).2 rfl
  rw [way]
  apply Stays.within
  · rfl
  · rw [Detour.ofParts_of_straight straight]
    exact List.length_pos_iff.mpr present

omit named noted

theorem findSource_eq_some {disk : Disk} {markers : List String} {path : String}
    (found : findSource disk markers type = .ok (some path)) :
    ∃ root dirs, projectRoot disk.exists? disk.cwd markers type.path = .ok (some root) ∧
      dirs ∈ sourceRoots ∧ path = sourcePath type root dirs := by
  unfold findSource at found
  obtain ⟨root?, above, rest⟩ := bind_eq_ok.mp found
  cases root? with
  | none => cases rest
  | some root =>
    simp only [firstOf_eq_some, sourceCandidates_eq] at rest
    obtain ⟨dirs, listed, rfl⟩ := List.mem_map.mp rest.1.mem
    exact ⟨root, dirs, above, listed, rfl⟩

namespace SourceLocator

/-- The states of a locator that was asked for the sources of some types, the latest first, and for
texts in between. -/
inductive Reached (markers : List String) : List (Disk × CompiledType) → SourceLocator → Prop where
  | fresh : Reached markers [] { markers }
  | located {asked : List (Disk × CompiledType)} {locator next : SourceLocator} {disk : Disk}
      {type : CompiledType}
      {found : Option String} {log : Log} (before : Reached markers asked locator)
        (rooted : isAbsolute disk.cwd = true)
      (answer : locator.locate disk type = .ok (found, next, log)) :
      Reached markers ((disk, type) :: asked) next
  | read {asked : List (Disk × CompiledType)} {locator : SourceLocator}
      (before : Reached markers asked locator)
      (disk : Disk) (path : String) : Reached markers asked (locator.read disk path).2.1

def FoundFor (markers : List String) (asked : List (Disk × CompiledType))
    (name path : String) : Prop :=
  ∃ request ∈ asked, isAbsolute request.1.cwd = true ∧ request.2.name = name ∧
    findSource request.1 markers request.2 = .ok (some path)

variable {markers : List String} {asked : List (Disk × CompiledType)}
  {locator next : SourceLocator} {disk : Disk}
  {found : Option String} {path : String} {log : Log}

theorem FoundFor.later {name : String} (before : FoundFor markers asked name path)
    (request : Disk × CompiledType) :
    FoundFor markers (request :: asked) name path := by
  obtain ⟨earlier, member, facts⟩ := before
  exact ⟨earlier, List.mem_cons_of_mem request member, facts⟩

structure Keeps (markers : List String) (asked : List (Disk × CompiledType))
    (locator : SourceLocator) : Prop where
  sought : locator.markers = markers
  located : ∀ name path, locator.located.get? name = some (some path) →
    FoundFor markers asked name path

theorem locate_cases (answer : locator.locate disk type = .ok (found, next, log)) :
    locator.located.get? type.name = some found ∧ next = locator ∨
      findSource disk locator.markers type = .ok found ∧
        next = { locator with located := locator.located.put type.name found } := by
  unfold locate at answer
  cases known : locator.located.get? type.name with
  | some earlier =>
    rw [known] at answer
    cases answer
    exact .inl ⟨rfl, rfl⟩
  | none =>
    rw [known] at answer
    obtain ⟨new, search, rest⟩ := bind_eq_ok.mp answer
    cases rest
    exact .inr ⟨search, rfl⟩

theorem Keeps.answer (keeps : Keeps markers asked locator) (rooted : isAbsolute disk.cwd = true)
    (answer : locator.locate disk type = .ok (some path, next, log)) :
    FoundFor markers ((disk, type) :: asked) type.name path := by
  rcases locate_cases answer with ⟨known, _⟩ | ⟨search, _⟩
  · exact (keeps.located type.name path known).later _
  · rw [keeps.sought] at search
    exact ⟨(disk, type), List.mem_cons_self, rooted, rfl, search⟩

theorem Keeps.locate (keeps : Keeps markers asked locator) (rooted : isAbsolute disk.cwd = true)
    (answer : locator.locate disk type = .ok (found, next, log)) :
    Keeps markers ((disk, type) :: asked) next := by
  rcases locate_cases answer with ⟨_, rfl⟩ | ⟨_, rfl⟩
  · exact ⟨keeps.sought, fun name path known => (keeps.located name path known).later _⟩
  · refine ⟨keeps.sought, ?_⟩
    intro name path known
    rw [Table.get?_put] at known
    split at known
    · rename_i same
      cases known
      rw [← same]
      exact keeps.answer rooted answer
    · exact (keeps.located name path known).later _

theorem Keeps.read (keeps : Keeps markers asked locator) (disk : Disk) (path : String) :
    Keeps markers asked (locator.read disk path).2.1 := by
  unfold SourceLocator.read
  split
  · exact keeps
  · exact ⟨keeps.sought, keeps.located⟩

theorem Reached.keeps (reached : Reached markers asked locator) : Keeps markers asked locator := by
  induction reached with
  | fresh => exact ⟨rfl, fun name path known => nomatch known⟩
  | located _ rooted answer ih => exact ih.locate rooted answer
  | read _ disk path ih => exact ih.read disk path

end SourceLocator

open SourceLocator

/-- Each place where a source may be lies below the root of the project just if the way of the type
stays there, as it does for the name of a file in a class file. A source that is located is such a
place, for a type of this name that was asked for. -/
theorem located_below_iff (type : CompiledType) :
    (∀ rootPath, isAbsolute rootPath = true →
      List.Forall₂
        (fun dirs path => Below rootPath path ↔ Stays rootPath dirs (sourceWay type)) sourceRoots
        (sourceCandidates type (Route.ofPath rootPath))) ∧
    (∀ bytes classPath, CompiledType.parse bytes classPath = .ok type →
      (∀ name, type.sourceFile = some name → '/' ∉ name.toList ∧ name ≠ "..") →
        ∀ rootPath, isAbsolute rootPath = true →
        ∀ path ∈ sourceCandidates type (Route.ofPath rootPath), Below rootPath path) ∧
    ∀ markers asked locator, Reached markers asked locator → ∀ (disk : Disk) path next log,
      isAbsolute disk.cwd = true → locator.locate disk type = .ok (some path, next, log) →
      ∃ request ∈ (disk, type) :: asked, request.2.name = type.name ∧ ∃ root dirs,
        projectRoot request.1.exists? request.1.cwd markers request.2.path = .ok (some root) ∧
        dirs ∈ sourceRoots ∧ path = sourcePath request.2 root dirs ∧
        (Below root.toPath path ↔ Stays root.toPath dirs (sourceWay request.2)) := by
  refine ⟨?_, ?_, ?_⟩
  · intro rootPath rooted
    rw [sourceCandidates_eq, List.forall₂_map_right_iff, List.forall₂_same]
    intro dirs listed
    exact below_sourcePath_iff rooted (sourceRoots_plain dirs listed) type
  · intro bytes classPath accepted noted rootPath rooted path member
    obtain ⟨internalName, name⟩ := (named_of_parse accepted).2
    have named : '/' ∉ type.name.toList := name ▸ MethodId.slash_notMem_dotted internalName
    rw [sourceCandidates_eq] at member
    obtain ⟨dirs, listed, rfl⟩ := List.mem_map.mp member
    rw [below_sourcePath_iff rooted (sourceRoots_plain dirs listed)]
    apply stays_of_plain named noted
    rintro rfl
    exact absurd listed (by decide)
  · intro markers asked locator reached disk path next log rooted answer
    obtain ⟨request, member, absolute, name, search⟩ := reached.keeps.answer rooted answer
    obtain ⟨root, dirs, above, listed, rfl⟩ := findSource_eq_some search
    obtain ⟨top, plain⟩ := projectRoot_plain absolute above
    obtain ⟨_, names⟩ := root
    obtain rfl := top
    have same := Route.ofPath_toPath plain
    refine ⟨request, member, name, _, dirs, above, listed, rfl, ?_⟩
    have agrees :=
      below_sourcePath_iff (Route.rooted_of_plain plain).isAbsolute_toPath
        (sourceRoots_plain dirs listed) request.2
    rwa [same] at agrees

def notingType (name sourceFile : String) : CompiledType :=
  { name, path := "/p/X.class", access := 0x21, superName := none, interfaces := [], methods := [],
    sourceFile := some sourceFile }

def besideOther : Disk :=
  { root := .dir [
      ("p", .dir [("pom.xml", .file []),
        ("src", .dir [("A.java", .file []), ("main", .dir [("java", .dir [])])])]),
      ("other", .dir [("X.java", .file [])])] }

theorem located_below_samples :
    (Stays "/p" ["src", "main", "java"] (sourceWay (notingType "a.C" "../../../B.java")) ∧
      ¬ Stays "/p" ["src"] (sourceWay (notingType "a.C" "../../../B.java"))) ∧
    (∃ type, CompiledType.parse bareClass "/p/A.class" = .ok type ∧
      ∀ path ∈ sourceCandidates type (Route.ofPath "/p"), Below "/p" path) ∧
    ∃ next log root dirs, SourceLocator.locate besideOther (notingType "X" "A.java")
    {} = .ok (some "/p/src/A.java", next, log) ∧
    projectRoot besideOther.exists? besideOther.cwd buildFiles "/p/X.class" = .ok (some root) ∧
      "/p/src/A.java" = sourcePath (notingType "X" "A.java") root dirs ∧
      (Below root.toPath "/p/src/A.java" ↔
        Stays root.toPath dirs (sourceWay (notingType "X" "A.java"))) := by
  refine ⟨?_, ?_, ?_⟩
  · have both := (located_below_iff (notingType "a.C" "../../../B.java")).1 "/p" (by decide)
    have paths : sourceCandidates (notingType "a.C" "../../../B.java") (Route.ofPath "/p") =
        ["/p/src/main/java/a/../../../B.java", "/p/src/a/../../../B.java"] := by decide +kernel
    rw [paths, sourceRoots, List.forall₂_cons, List.forall₂_cons] at both
    exact ⟨both.1.mp (by decide +kernel),
      fun stays => absurd (both.2.1.mpr stays) (by decide +kernel)⟩
  · have facts : (CompiledType.parse bareClass "/p/A.class").toOption.map CompiledType.sourceFile =
        some none := by decide +kernel
    cases accepted : CompiledType.parse bareClass "/p/A.class" with
    | error e =>
      rw [accepted] at facts
      cases facts
    | ok type =>
      rw [accepted] at facts
      have none : type.sourceFile = none := Option.some.inj facts
      refine ⟨type, rfl, (located_below_iff type).2.1 _ _ accepted ?_ "/p" (by decide)⟩
      intro name noted
      rw [none] at noted
      cases noted
  · have facts :
        (SourceLocator.locate besideOther (notingType "X" "A.java") {}).toOption.map Prod.fst =
        some (some "/p/src/A.java") := by decide +kernel
    cases answer : SourceLocator.locate besideOther (notingType "X" "A.java") {} with
    | error fault =>
      rw [answer] at facts
      cases facts
    | ok result =>
      obtain ⟨found, next, log⟩ := result
      rw [answer] at facts
      obtain rfl : found = some "/p/src/A.java" := Option.some.inj facts
      obtain ⟨request, member, _, root, dirs, above, _, place, agrees⟩ :=
        (located_below_iff (notingType "X" "A.java")).2.2 buildFiles
          [] _ .fresh besideOther _ next log (by decide) answer
      obtain rfl := List.mem_singleton.mp member
      exact ⟨next, log, root, dirs, rfl, above, place, agrees⟩

/-- An absolute name leads out of the project, and so do enough `..` where there is a file
outside. -/
theorem located_outside :
    sourceCandidates (notingType "a.b.C" "/abs/X.java")
    (Route.ofPath "/p") = ["/abs/X.java", "/abs/X.java"] ∧
      ¬ Below "/p" "/abs/X.java" ∧
      projectRoot besideOther.exists? besideOther.cwd buildFiles
        (notingType "X" "../../../../other/X.java").path = .ok (some (Route.ofPath "/p")) ∧
      ((SourceLocator.locate besideOther
        (notingType "X" "../../../../other/X.java") {}).toOption.map Prod.fst) =
        some (some "/p/src/main/java/../../../../other/X.java") ∧
      ¬ Below "/p" "/p/src/main/java/../../../../other/X.java" := by
  refine ⟨?_, ?_, ?_, ?_, ?_⟩
  · decide +kernel
  · decide +kernel
  · decide +kernel
  · decide +kernel
  · decide +kernel

end Project

end CallAtlas
