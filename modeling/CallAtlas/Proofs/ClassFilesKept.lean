import CallAtlas.Project.LoadedTypes
import CallAtlas.Proofs.NormalPaths
import CallAtlas.Proofs.Sorting
import Mathlib.Logic.Relation

/-! Changes of a file system that leave its class files as they are. -/

namespace CallAtlas

theorem flatMap_sortBy_append_empty {α : Type} (xs : List (String × List α)) (name : String) :
    ((xs ++ [(name, [])]).mergeSort fun a b => a.1 ≤ b.1).flatMap Prod.snd =
      (xs.mergeSort fun a b => a.1 ≤ b.1).flatMap Prod.snd := by
  have full (ys : List (String × List α)) : (ys.filter fun y => !y.2.isEmpty).flatMap Prod.snd =
      ys.flatMap Prod.snd := by
    induction ys with
    | nil => rfl
    | cons y rest ih =>
      rw [List.filter_cons, List.flatMap_cons]
      split
      · rw [List.flatMap_cons, ih]
      · rename_i skipped
        have empty : y.2 = [] := by simpa using skipped
        rw [ih, empty, List.nil_append]
  rw [← full, ← full (xs.mergeSort _), filter_sortBy Prod.fst, filter_sortBy Prod.fst,
    List.filter_append]
  simp

namespace Files

namespace FileTree

/-- What may come under a name in place of what is there: a file other than a class file where no
directory is, and an empty directory where nothing is. -/
inductive Harmless (name : String) : Option FileTree → FileTree → Prop
  | file {old : Option FileTree} (noDir : ∀ tree, old = some tree → tree.isDir = false)
      (other : isClassFile name = false) (content : List UInt8) : Harmless name old (.file content)
  | dir : Harmless name none (.dir [])

inductive Adds : FileTree → FileTree → Prop
  | here {entries : List (String × FileTree)} {name : String} {new : FileTree}
      (harmless : Harmless name (Table.get? name entries) new) :
      Adds (dir entries) (dir (Table.put name new entries))
  | deeper {entries : List (String × FileTree)} {name : String} {old new : FileTree}
      (there : Table.get? name entries = some old) (adds : Adds old new) :
      Adds (dir entries) (dir (Table.put name new entries))

variable {old new : FileTree}

theorem adds_put {tree : FileTree} {way : List String} {entries : List (String × FileTree)}
    {name : String} (here : tree.lookup way = some (dir entries))
    (harmless : Harmless name (Table.get? name entries) new) :
    Adds tree (put new (way ++ [name]) tree) := by
  induction way generalizing tree with
  | nil =>
    cases here
    exact .here harmless
  | cons first way ih =>
    obtain ⟨child, entry, rest⟩ := lookup_cons_eq_some.mp here
    cases tree with
    | file => cases entry
    | dir list =>
      rw [List.cons_append, put, entry]
      exact .deeper entry (ih rest)

theorem Adds.isDir (adds : Adds old new) : old.isDir = true ∧ new.isDir = true := by
  cases adds <;> exact ⟨rfl, rfl⟩

def classFile? (entry : String × FileTree) : Option String :=
  if entry.2.isDir then none else if isClassFile entry.1 then some entry.1 else none

theorem classFile?_eq_some {entry : String × FileTree} {name : String} :
    classFile? entry = some name ↔ entry.1 = name ∧ isClassFile name = true ∧
    ∃ content, entry.2 = .file content := by
  obtain ⟨first, tree⟩ := entry
  cases tree with
  | dir => simp [classFile?, isDir]
  | file content =>
    simp only [classFile?, isDir, Bool.false_eq_true, ↓reduceIte, Option.ite_none_right_eq_some,
      Option.some.injEq]
    constructor
    · rintro ⟨isClass, rfl⟩
      exact ⟨rfl, isClass, content, rfl⟩
    · rintro ⟨rfl, isClass, _⟩
      exact ⟨isClass, rfl⟩

def filesBelow (path : String) (entry : String × FileTree) : String × List String :=
  (entry.1, classFilesIn (joinPath path entry.1) entry.2)

theorem classFilesOf_eq_map (path : String) (entries : List (String × FileTree)) :
    classFilesOf path entries = entries.map (filesBelow path) := by
  induction entries with
  | nil => rw [classFilesOf, List.map_nil]
  | cons entry rest ih => rw [classFilesOf, ih, List.map_cons, filesBelow]

theorem classFilesIn_dir (path : String) (entries : List (String × FileTree)) :
    classFilesIn path (dir entries) = (Text.sortTexts (entries.filterMap classFile?)).map
      (joinPath path) ++
      ((entries.map (filesBelow path)).mergeSort fun a b => a.1 ≤ b.1).flatMap Prod.snd := by
  rw [classFilesIn, classFilesOf_eq_map]
  congr 3
  apply List.filterMap_congr
  intro entry _
  unfold classFile?
  cases entry.2 <;> rfl

theorem classFilesIn_put_present {entries : List (String × FileTree)} {name : String}
    (path : String) (there : Table.get? name entries = some old)
    (listed : classFile? (name, new) = classFile? (name, old))
    (below : classFilesIn (joinPath path name) new = classFilesIn (joinPath path name) old) :
    classFilesIn path (dir (Table.put name new entries)) = classFilesIn path (dir entries) := by
  obtain ⟨before, after, split, changed⟩ := Table.put_present there new
  have same :
      filesBelow path (name, new) =
      filesBelow path (name, old) := by rw [filesBelow, filesBelow, below]
  rw [classFilesIn_dir, classFilesIn_dir, changed, split]
  simp only [List.filterMap_append, List.filterMap_cons, List.map_append,
    List.map_cons, listed, same]

theorem classFilesIn_put_absent {entries : List (String × FileTree)} {name : String} (path : String)
    (absent : Table.get? name entries = none) (unlisted : classFile? (name, new) = none)
    (below : classFilesIn (joinPath path name) new = []) :
    classFilesIn path (dir (Table.put name new entries)) = classFilesIn path (dir entries) := by
  have same : filesBelow path (name, new) = (name, []) := by rw [filesBelow, below]
  rw [classFilesIn_dir, classFilesIn_dir, Table.put_absent absent, List.filterMap_append,
    List.map_append, List.map_singleton, same, flatMap_sortBy_append_empty, List.filterMap_cons,
    unlisted, List.filterMap_nil, List.append_nil]

/-- A harmless change adds no class file and takes none away. -/
theorem classFilesIn_adds (adds : Adds old new) (path : String) :
    classFilesIn path new = classFilesIn path old := by
  induction adds generalizing path with
  | @here entries name new harmless =>
    have noFiles (content : List UInt8) : classFilesIn (joinPath path name) (.file content) =
        [] := by rw [classFilesIn]
    cases before : Table.get? name entries with
    | none =>
      rw [before] at harmless
      cases harmless with
      | file _ other content =>
        apply classFilesIn_put_absent path before
        · simp [classFile?, FileTree.isDir, other]
        · exact noFiles content
      | dir =>
        apply classFilesIn_put_absent path before
        · rfl
        · simp [classFilesIn_dir, Text.sortTexts]
    | some old =>
      rw [before] at harmless
      cases harmless with
      | file noDir other content =>
        have isFile := noDir old rfl
        cases old with
        | dir => cases isFile
        | file earlier =>
          apply classFilesIn_put_present path before
          · simp [classFile?, FileTree.isDir, other]
          · rw [noFiles, noFiles]
  | @deeper entries name old new there adds ih =>
    apply classFilesIn_put_present path there
    · simp [classFile?, adds.isDir]
    · exact ih _

theorem lookup_dir_put (entries : List (String × FileTree)) (name : String) (new : FileTree)
    (first : String) (rest : List String) :
    (dir (Table.put name new entries)).lookup (first :: rest) =
      if name = first then new.lookup rest else (dir entries).lookup (first :: rest) := by
  have listed : Table.get? first (dir (Table.put name new entries)).entries = _ :=
    Table.get?_put first name new entries
  rw [lookup, listed]
  by_cases same : name = first
  · rw [if_pos same, if_pos same]
  · rw [if_neg same, if_neg same]
    rfl

theorem lookup_adds (adds : Adds old new) {way : List String} {found : FileTree}
    (there : old.lookup way = some found) :
    ∃ found', new.lookup way = some found' ∧ found'.isDir = found.isDir ∧
      ∀ path, classFilesIn path found' = classFilesIn path found := by
  induction adds generalizing way with
  | @here entries name new harmless =>
    cases way with
    | nil =>
      cases there
      exact ⟨_, rfl, rfl, classFilesIn_adds (.here harmless)⟩
    | cons first rest =>
      rw [lookup_dir_put]
      split
      · rename_i same
        subst same
        obtain ⟨middle, entry, later⟩ := lookup_cons_eq_some.mp there
        rw [show Table.get? name entries = some middle from entry] at harmless
        cases harmless with
        | file noDir _ content =>
          -- A file took the place of a file, which a way can only end at.
          have isFile := noDir middle rfl
          cases middle with
          | dir => cases isFile
          | file earlier =>
            cases rest with
            | cons => cases later
            | nil =>
              cases later
              refine ⟨.file content, rfl, rfl, ?_⟩
              intro path
              rw [classFilesIn, classFilesIn]
      · exact ⟨found, there, rfl, fun _ => rfl⟩
  | @deeper entries name old new present adds ih =>
    cases way with
    | nil =>
      cases there
      exact ⟨_, rfl, rfl, classFilesIn_adds (.deeper present adds)⟩
    | cons first rest =>
      rw [lookup_dir_put]
      split
      · rename_i same
        subst same
        obtain ⟨middle, entry, later⟩ := lookup_cons_eq_some.mp there
        cases present.symm.trans entry
        exact ih later
      · exact ⟨found, there, rfl, fun _ => rfl⟩

def contentAt (tree : FileTree) : List String → Option (List UInt8)
  | [] => match tree with
    | file content => some content
    | dir _ => none
  | part :: rest =>
    if !tree.isDir then none
    else if part = "" || part = "." then tree.contentAt rest
    else match tree.child part with
      | .ok found => found.contentAt rest
      | .error _ => none

def EndsInClass (parts : List String) : Prop :=
  ∃ name, parts.getLast? = some name ∧ isClassFile name = true

theorem EndsInClass.tail {part : String} {rest : List String} (ends : EndsInClass (part :: rest))
    (other : isClassFile part = false) : EndsInClass rest := by
  obtain ⟨name, last, isClass⟩ := ends
  cases rest with
  | nil =>
    rw [List.getLast?_singleton, Option.some.injEq] at last
    rw [← last, other] at isClass
    cases isClass
  | cons next later => exact ⟨name, List.getLast?_cons_cons ▸ last, isClass⟩

theorem EndsInClass.ne_nil {parts : List String} (ends : EndsInClass parts) : parts ≠ [] := by
  rintro rfl
  obtain ⟨_, impossible, _⟩ := ends
  cases impossible

theorem endsInClass_singleton {name : String} : EndsInClass [name] ↔ isClassFile name = true := by
  simp [EndsInClass]

theorem endsInClass_cons_cons {name next : String} {rest : List String} :
    EndsInClass (name :: next :: rest) ↔ EndsInClass (next :: rest) := by
  simp only [EndsInClass, List.getLast?_cons_cons]

theorem endsInClass_append {top rest : List String} (nonempty : rest ≠ []) :
    EndsInClass (top ++ rest) ↔ EndsInClass rest := by
  rw [EndsInClass, EndsInClass, List.getLast?_append_of_ne_nil top nonempty]

theorem contentAt_dir (entries : List (String × FileTree)) (part : String) (rest : List String) :
    (dir entries).contentAt (part :: rest) =
      if part = "" || part = "." then (dir entries).contentAt rest
      else if maxName < (Text.encodeUtf8 part.toList).length then none
      else (Table.get? part entries).bind fun found => found.contentAt rest := by
  rw [contentAt, child]
  simp only [isDir, Bool.not_true, Bool.false_eq_true, ↓reduceIte]
  by_cases long : maxName < (Text.encodeUtf8 part.toList).length
  · rw [if_pos long, if_pos long]
  · rw [if_neg long, if_neg long]
    cases Table.get? part entries <;> rfl

theorem contentAt_file (content : List UInt8) (part : String) (rest : List String) :
    (file content).contentAt (part :: rest) = none := by
  simp [contentAt, isDir]

theorem contentAt_empty (parts : List String) : (dir []).contentAt parts = none := by
  induction parts with
  | nil => rfl
  | cons part rest ih =>
    rw [contentAt_dir, ih]
    simp [Table.get?]

theorem contentAt_congr {entries entries' : List (String × FileTree)}
    (each : ∀ part rest, EndsInClass (part :: rest) →
      ((Table.get? part entries').bind fun found => found.contentAt rest) =
        (Table.get? part entries).bind fun found => found.contentAt rest)
    {parts : List String} (ends : EndsInClass parts) :
    (dir entries').contentAt parts = (dir entries).contentAt parts := by
  induction parts with
  | nil => rfl
  | cons part rest ih =>
    rw [contentAt_dir, contentAt_dir]
    split
    · rename_i stays
      have other : isClassFile part = false := by
        rw [Bool.or_eq_true, decide_eq_true_eq, decide_eq_true_eq] at stays
        rcases stays with rfl | rfl <;> decide
      exact ih (ends.tail other)
    · rw [each part rest ends]

theorem Harmless.contentAt {name : String} {before : Option FileTree} {rest : List String}
    (harmless : Harmless name before new) (ends : EndsInClass (name :: rest)) :
    new.contentAt rest = none ∧ (before.bind fun old => old.contentAt rest) = none := by
  cases harmless with
  | dir => exact ⟨contentAt_empty rest, rfl⟩
  | file noDir other content =>
    cases rest with
    | nil =>
      obtain ⟨_, impossible, _⟩ := ends.tail other
      cases impossible
    | cons part rest =>
      refine ⟨contentAt_file content part rest, ?_⟩
      cases before with
      | none => rfl
      | some old =>
        have isFile := noDir old rfl
        cases old with
        | dir => cases isFile
        | file earlier => exact contentAt_file earlier part rest

theorem contentAt_adds (adds : Adds old new) {parts : List String} (ends : EndsInClass parts) :
    new.contentAt parts = old.contentAt parts := by
  induction adds generalizing parts with
  | @here entries name new harmless =>
    apply contentAt_congr _ ends
    intro part rest ends
    rw [Table.get?_put]
    split
    · rename_i same
      subst same
      obtain ⟨after, before⟩ := harmless.contentAt ends
      rw [before]
      exact after
    · rfl
  | @deeper entries name old new there adds ih =>
    apply contentAt_congr _ ends
    intro part rest ends
    rw [Table.get?_put]
    split
    · rename_i same
      subst same
      rw [there, Option.bind_some, Option.bind_some]
      cases rest with
      | nil => cases adds <;> rfl
      | cons next later =>
        obtain ⟨last, isLast, isClass⟩ := ends
        exact ih ⟨last, List.getLast?_cons_cons ▸ isLast, isClass⟩
    · rfl

inductive Regular : FileTree → Prop
  | file (content : List UInt8) : Regular (.file content)
  | dir {entries : List (String × FileTree)} (names : ∀ entry ∈ entries, PlainName entry.1)
      (deeper : ∀ entry ∈ entries, Regular entry.2) : Regular (.dir entries)

theorem Regular.lookup {tree found : FileTree} (regular : Regular tree) {way : List String}
    (there : tree.lookup way = some found) : Regular found := by
  induction way generalizing tree with
  | nil =>
    cases there
    exact regular
  | cons name rest ih =>
    obtain ⟨middle, entry, later⟩ := lookup_cons_eq_some.mp there
    cases regular with
    | file => cases entry
    | dir names deeper => exact ih (deeper _ (Table.mem_of_get? entry)) later

structure ClassPath (path : String) : Prop extends Downward path where
  ends : EndsInClass (components path)

theorem classPath_of_mem {tree : FileTree} (regular : Regular tree) {base path : String}
    (down : Downward base) (member : path ∈ classFilesIn base tree) : ClassPath path := by
  induction regular generalizing base with
  | file content =>
    rw [classFilesIn] at member
    cases member
  | @dir entries names deeper ih =>
    rw [classFilesIn_dir, List.mem_append] at member
    rcases member with here | below
    · obtain ⟨name, sorted, rfl⟩ := List.mem_map.mp here
      obtain ⟨entry, present, listed⟩ := List.mem_filterMap.mp (Text.mem_sortTexts.mp sorted)
      obtain ⟨rfl, isClass, _⟩ := classFile?_eq_some.mp listed
      have plain := names entry present
      obtain ⟨front, parts, _⟩ :=
        components_joinPath (ne_empty_of_isAbsolute down.rooted) plain.noSlash
      refine ⟨down.entry plain, entry.1, ?_, isClass⟩
      rw [parts, List.getLast?_concat]
    · obtain ⟨group, sorted, inside⟩ := List.mem_flatMap.mp below
      obtain ⟨entry, present, rfl⟩ := List.mem_map.mp (List.mem_mergeSort.mp sorted)
      exact ih entry present (down.entry (names entry present)) inside

theorem follow_contentAt {parts : List String} (straight : ".." ∉ parts)
    (above : List (FileTree × String)) (tree : FileTree) :
    ((follow above tree parts).toOption.bind fun place => place.2.contentAt []) =
    tree.contentAt parts := by
  induction parts generalizing above tree with
  | nil => rfl
  | cons part rest ih =>
    rw [List.mem_cons, not_or] at straight
    rw [follow_cons, contentAt]
    split
    · rfl
    · split
      · exact ih straight.2 above tree
      · rw [if_neg (Ne.symm straight.1)]
        cases tree.child part with
        | error e => rfl
        | ok found => exact ih straight.2 _ found

end FileTree

open FileTree

namespace Disk

theorem read_classPath {disk : Disk} {path : String} (down : Downward path) :
    (disk.read path).toOption = disk.root.contentAt (components path) := by
  have present : path.isEmpty = false := by
    simpa [String.isEmpty_iff] using ne_empty_of_isAbsolute down.rooted
  rw [← follow_contentAt down.straight [], read, find, locate, present,
    joinPath_of_isAbsolute down.rooted]
  simp only [Bool.false_eq_true, ↓reduceIte]
  cases follow [] disk.root (components path) with
  | error e => rfl
  | ok place =>
    obtain ⟨above, tree⟩ := place
    cases tree <;> rfl

/-- The class files below a directory are the same on both disks, with what is in them. -/
structure SameClasses (dir : String) (disk disk' : Disk) : Prop where
  cwd : disk'.cwd = disk.cwd
  isDir : disk'.isDir dir = disk.isDir dir
  files : disk'.classFiles dir = disk.classFiles dir
  contents : ∀ path ∈ disk.classFiles dir, (disk'.read path).toOption = (disk.read path).toOption

namespace SameClasses

variable {dir : String} {disk disk' disk'' : Disk}

theorem refl (dir : String) (disk : Disk) : SameClasses dir disk disk :=
  ⟨rfl, rfl, rfl, fun _ _ => rfl⟩

theorem trans (first : SameClasses dir disk disk') (second : SameClasses dir disk' disk'') :
    SameClasses dir disk disk'' := by
  refine ⟨second.cwd.trans first.cwd, second.isDir.trans first.isDir,
    second.files.trans first.files, ?_⟩
  intro path member
  rw [second.contents path (first.files ▸ member), first.contents path member]

end SameClasses

def Straight (dir : String) (disk : Disk) : Prop := ∀ path ∈ disk.classFiles dir, ClassPath path

theorem find_eq_ok {disk : Disk} {path : String} {tree : FileTree} :
    disk.find path = .ok tree ↔ ∃ way, disk.locate path = .ok (way, tree) := by
  simp only [find, bind_eq_ok, pure_eq_ok, Prod.exists]
  constructor
  · intro found
    obtain ⟨way, _, place, rfl⟩ := found
    exact ⟨way, place⟩
  · intro found
    obtain ⟨way, place⟩ := found
    exact ⟨way, tree, place, rfl⟩

theorem straight_of_regular {disk : Disk} (regular : disk.root.Regular)
    (rooted : isAbsolute disk.cwd = true) (dir : String) : disk.Straight dir := by
  intro path member
  rw [classFiles] at member
  split at member
  · rename_i tree found
    obtain ⟨way, place⟩ := find_eq_ok.mp found
    exact classPath_of_mem (regular.lookup (locate_lookup place))
      (absolute_downward rooted dir) member
  · cases member

theorem sameClasses_of_adds {dir : String} {disk : Disk} {root' : FileTree}
    (present : disk.isDir dir = true) (straight : disk.Straight dir) (adds : Adds disk.root root') :
    SameClasses dir disk { disk with root := root' } := by
  cases found : disk.find dir with
  | error e =>
    rw [isDir, found] at present
    cases present
  | ok tree =>
    obtain ⟨way, place⟩ := find_eq_ok.mp found
    have keeps : Keeps disk.root root' := by
      intro way found there
      obtain ⟨found', there', sameKind, _⟩ := lookup_adds adds there
      exact ⟨found', there', sameKind⟩
    obtain ⟨tree', place'⟩ : ∃ tree', Disk.locate { disk with root := root' } dir =
        .ok (way, tree') :=
      locate_keeps place keeps rfl
    obtain ⟨kept, there, sameKind, sameFiles⟩ := lookup_adds adds (locate_lookup place)
    cases (locate_lookup place').symm.trans there
    have found' := find_eq_ok.mpr ⟨way, place'⟩
    refine ⟨rfl, ?_, ?_, ?_⟩
    · rw [isDir, isDir, found, found']
      exact sameKind
    · rw [classFiles, classFiles, found, found']
      exact sameFiles _
    · intro path member
      have classPath := straight path member
      rw [read_classPath classPath.toDownward, read_classPath classPath.toDownward]
      exact contentAt_adds adds classPath.ends

theorem sameClasses_of_changes {dir : String} {disk : Disk} {root' : FileTree}
    (present : disk.isDir dir = true) (straight : disk.Straight dir)
    (changes : Relation.ReflTransGen Adds disk.root root') :
    SameClasses dir disk { disk with root := root' } := by
  induction changes with
  | refl => exact .refl dir disk
  | tail _ last ih =>
    refine ih.trans (sameClasses_of_adds ?_ ?_ last)
    · rw [ih.isDir, present]
    · intro path member
      exact straight path (ih.files ▸ member)

end Disk

end Files

namespace Project

open Files ClassFile

variable {dir : String} {disk disk' : Disk}

theorem addFile_of_sameContent {path : String}
    (same : (disk'.read path).toOption = (disk.read path).toOption)
    (loaded : LoadedTypes) : (loaded.addFile disk' path).1 = (loaded.addFile disk path).1 := by
  unfold LoadedTypes.addFile readType
  cases before : disk.read path with
  | error e =>
    rw [before] at same
    cases after : disk'.read path with
    | error e' => rfl
    | ok bytes =>
      rw [after] at same
      cases same
  | ok bytes =>
    rw [before] at same
    cases after : disk'.read path with
    | error e' =>
      rw [after] at same
      cases same
    | ok bytes' =>
      rw [after] at same
      cases same
      rfl

theorem addFiles_of_sameContents {paths : List String}
    (same : ∀ path ∈ paths, (disk'.read path).toOption = (disk.read path).toOption)
    (loaded : LoadedTypes) :
    (LoadedTypes.addFiles disk' paths loaded).1 = (LoadedTypes.addFiles disk paths loaded).1 := by
  induction paths generalizing loaded with
  | nil => rfl
  | cons path rest ih =>
    rw [List.forall_mem_cons] at same
    simp only [LoadedTypes.addFiles]
    rw [ih same.2, addFile_of_sameContent same.1]

theorem ofDir_of_sameClasses (same : Disk.SameClasses dir disk disk') :
    (LoadedTypes.ofDir disk' dir).1 = (LoadedTypes.ofDir disk dir).1 := by
  simp only [LoadedTypes.ofDir]
  rw [same.files, same.cwd, addFiles_of_sameContents same.contents]

end Project

end CallAtlas
