import CallAtlas.Proofs.ClassFilesKept
import CallAtlas.Proofs.Truncation
import Mathlib.Data.List.Nodup

/-!
The class files below a directory: each is listed once, in an order that does not depend on how the
directories are stored, and each is either loaded or skipped.
-/

namespace CallAtlas

namespace Files

namespace FileTree

structure EntryName (name : String) : Prop extends PlainName name where
  short : (Text.encodeUtf8 name.toList).length ≤ maxName

instance (name : String) : Decidable (EntryName name) :=
  decidable_of_iff ((name ≠ "" ∧ name ≠ "." ∧ name ≠ ".." ∧ '/' ∉ name.toList) ∧
      (Text.encodeUtf8 name.toList).length ≤ maxName)
    ⟨fun ⟨⟨nonempty, notHere, notAbove, noSlash⟩, short⟩ =>
      ⟨⟨nonempty, notHere, notAbove, noSlash⟩, short⟩,
      fun ⟨⟨nonempty, notHere, notAbove, noSlash⟩, short⟩ =>
        ⟨⟨nonempty, notHere, notAbove, noSlash⟩, short⟩⟩

inductive WellFormed : FileTree → Prop
  | file (content : List UInt8) : WellFormed (.file content)
  | dir {entries : List (String × FileTree)} (distinct : (Table.keys entries).Nodup)
      (names : ∀ entry ∈ entries, EntryName entry.1)
        (deeper : ∀ entry ∈ entries, WellFormed entry.2) :
      WellFormed (.dir entries)

theorem lookup_dir_cons {entries : List (String × FileTree)} (distinct : (Table.keys entries).Nodup)
    {name : String} {rest : List String} {found : FileTree} :
    (dir entries).lookup (name :: rest) = some found ↔
      ∃ tree, (name, tree) ∈ entries ∧ tree.lookup rest = some found := by
  rw [lookup_cons_eq_some]
  constructor
  · rintro ⟨tree, entry, later⟩
    exact ⟨tree, Table.mem_of_get? entry, later⟩
  · rintro ⟨tree, member, later⟩
    exact ⟨tree, Table.get?_of_mem distinct member, later⟩

namespace WellFormed

variable {tree found : FileTree}

theorem lookup (wellFormed : WellFormed tree) {way : List String}
    (there : tree.lookup way = some found) :
    WellFormed found ∧ ∀ name ∈ way, EntryName name := by
  induction way generalizing tree with
  | nil =>
    cases there
    exact ⟨wellFormed, by simp⟩
  | cons name rest ih =>
    obtain ⟨middle, entry, later⟩ := lookup_cons_eq_some.mp there
    cases wellFormed with
    | file => cases entry
    | dir distinct names deeper =>
      have member := Table.mem_of_get? entry
      have below := ih (deeper _ member) later
      exact ⟨below.1, List.forall_mem_cons.mpr ⟨names _ member, below.2⟩⟩

end WellFormed

def pathBelow (base : String) (way : List String) : String := way.foldl joinPath base

theorem downward_pathBelow {way : List String} (plain : ∀ name ∈ way, PlainName name)
    {base : String} (down : Downward base) : Downward (pathBelow base way) := by
  induction way generalizing base with
  | nil => exact down
  | cons name rest ih =>
    rw [List.forall_mem_cons] at plain
    exact ih plain.2 (down.entry plain.1)

theorem steps_pathBelow {way : List String} (plain : ∀ name ∈ way, PlainName name) {base : String}
    (down : Downward base) : steps (pathBelow base way) = steps base ++ way := by
  induction way generalizing base with
  | nil => exact (List.append_nil _).symm
  | cons name rest ih =>
    rw [List.forall_mem_cons] at plain
    calc
      steps (pathBelow base (name :: rest)) = steps (joinPath base name) ++ rest :=
        ih plain.2 (down.entry plain.1)
      _ = steps base ++ steps name ++ rest := by
        rw [steps_joinPath (ne_empty_of_isAbsolute down.rooted) plain.1.noSlash]
      _ = steps base ++
          (name :: rest) := by rw [steps_plain plain.1, List.append_assoc, List.singleton_append]

theorem pathBelow_injective {way way' : List String} (plain : ∀ name ∈ way, PlainName name)
    (plain' : ∀ name ∈ way', PlainName name) {base : String} (down : Downward base)
    (same : pathBelow base way = pathBelow base way') : way = way' := by
  have steps := congrArg steps same
  rw [steps_pathBelow plain down, steps_pathBelow plain' down] at steps
  exact List.append_cancel_left steps

theorem mem_classFilesIn {tree : FileTree} (wellFormed : WellFormed tree) {base path : String} :
    path ∈ classFilesIn base tree ↔
      ∃ way content, tree.lookup way = some (.file content) ∧ EndsInClass way ∧
        path = pathBelow base way := by
  induction wellFormed generalizing base with
  | file content =>
    rw [classFilesIn]
    constructor
    · intro impossible
      cases impossible
    · rintro ⟨way, found, there, ends, _⟩
      obtain ⟨name, rest, rfl⟩ := List.exists_cons_of_ne_nil ends.ne_nil
      cases there
  | @dir entries distinct names deeper ih =>
    rw [classFilesIn_dir, List.mem_append, List.mem_map, List.mem_flatMap]
    constructor
    · rintro (⟨name, sorted, rfl⟩ | ⟨group, sorted, inside⟩)
      · obtain ⟨⟨first, tree⟩, present, listed⟩ :=
          List.mem_filterMap.mp (Text.mem_sortTexts.mp sorted)
        obtain ⟨rfl, isClass, content, rfl⟩ := classFile?_eq_some.mp listed
        refine ⟨[first], content, ?_, endsInClass_singleton.mpr isClass, rfl⟩
        exact (lookup_dir_cons distinct).mpr ⟨_, present, rfl⟩
      · obtain ⟨⟨name, tree⟩, present, rfl⟩ := List.mem_map.mp (List.mem_mergeSort.mp sorted)
        obtain ⟨way, content, there, ends, rfl⟩ := (ih _ present).mp inside
        obtain ⟨next, rest, rfl⟩ := List.exists_cons_of_ne_nil ends.ne_nil
        refine ⟨name :: next :: rest, content, ?_, endsInClass_cons_cons.mpr ends, rfl⟩
        exact (lookup_dir_cons distinct).mpr ⟨tree, present, there⟩
    · rintro ⟨way, content, there, ends, rfl⟩
      obtain ⟨name, rest, rfl⟩ := List.exists_cons_of_ne_nil ends.ne_nil
      obtain ⟨tree, present, later⟩ := (lookup_dir_cons distinct).mp there
      cases rest with
      | nil =>
        cases later
        have listed : classFile? (name, .file content) = some name :=
          classFile?_eq_some.mpr ⟨rfl, endsInClass_singleton.mp ends, content, rfl⟩
        exact .inl ⟨name, Text.mem_sortTexts.mpr (List.mem_filterMap.mpr ⟨_, present, listed⟩), rfl⟩
      | cons next rest =>
        refine .inr
          ⟨filesBelow base (name, tree), List.mem_mergeSort.mpr (List.mem_map_of_mem present), ?_⟩
        exact (ih _ present).mpr ⟨_, content, later, endsInClass_cons_cons.mp ends, rfl⟩

theorem classFile?_sublist (entries : List (String × FileTree)) :
    (entries.filterMap classFile?).Sublist (Table.keys entries) := by
  induction entries with
  | nil => exact .slnil
  | cons entry rest ih =>
    cases listed : classFile? entry with
    | none =>
      rw [List.filterMap_cons_none listed]
      exact ih.cons _
    | some name =>
      rw [List.filterMap_cons_some listed, ← (classFile?_eq_some.mp listed).1]
      exact ih.cons_cons _

theorem nodup_classFile? {entries : List (String × FileTree)}
    (distinct : (Table.keys entries).Nodup) :
    (entries.filterMap classFile?).Nodup := distinct.sublist (classFile?_sublist entries)

theorem ascending_filesBelow {entries : List (String × FileTree)}
    (distinct : (Table.keys entries).Nodup) (base : String) :
    ((entries.map (filesBelow base)).mergeSort fun a b => a.1 ≤ b.1).Pairwise fun a b =>
      a.1 < b.1 := by
  apply strict_sortBy Prod.fst
  rw [List.map_map]
  exact distinct

theorem exists_way_of_mem {name : String} {tree : FileTree} (plain : PlainName name)
    (wellFormed : WellFormed tree) {base path : String}
    (inside : path ∈ classFilesIn (joinPath base name) tree) :
    ∃ rest, rest ≠ [] ∧ (∀ part ∈ name :: rest, PlainName part) ∧
      path = pathBelow base (name :: rest) := by
  obtain ⟨way, content, there, ends, rfl⟩ := (mem_classFilesIn wellFormed).mp inside
  have rest := (wellFormed.lookup there).2
  refine ⟨way, ends.ne_nil, ?_, rfl⟩
  exact List.forall_mem_cons.mpr ⟨plain, fun part member => (rest part member).toPlainName⟩

theorem disjoint_filesBelow {name name' : String} {tree tree' : FileTree} (plain : PlainName name)
    (plain' : PlainName name') (wellFormed : WellFormed tree) (wellFormed' : WellFormed tree')
    (apart : name ≠ name') {base : String} (down : Downward base) :
    List.Disjoint (filesBelow base (name, tree)).2 (filesBelow base (name', tree')).2 := by
  intro path inside inside'
  obtain ⟨rest, _, isPlain, rfl⟩ := exists_way_of_mem plain wellFormed inside
  obtain ⟨rest', _, isPlain', same⟩ := exists_way_of_mem plain' wellFormed' inside'
  exact apart (List.cons.inj (pathBelow_injective isPlain isPlain' down same)).1

theorem nodup_classFilesIn {tree : FileTree} (wellFormed : WellFormed tree) {base : String}
    (down : Downward base) :
    (classFilesIn base tree).Nodup := by
  induction wellFormed generalizing base with
  | file content =>
    rw [classFilesIn]
    exact List.nodup_nil
  | @dir entries distinct names deeper ih =>
    have plain {name : String} {tree : FileTree} (present : (name, tree) ∈ entries) :
        PlainName name :=
      (names _ present).toPlainName
    have listed {name : String} (member : name ∈ Text.sortTexts (entries.filterMap classFile?)) :
        ∀ part ∈ [name], PlainName part := by
      obtain ⟨⟨first, tree⟩, present, isListed⟩ :=
        List.mem_filterMap.mp (Text.mem_sortTexts.mp member)
      rw [List.forall_mem_singleton]
      exact (classFile?_eq_some.mp isListed).1 ▸ plain present
    rw [classFilesIn_dir, List.nodup_append, List.nodup_flatMap]
    refine ⟨?_, ⟨?_, ?_⟩, ?_⟩
    · have sorted : (Text.sortTexts (entries.filterMap classFile?)).Nodup :=
        (List.mergeSort_perm _ _).nodup_iff.mpr (nodup_classFile? distinct)
      apply List.Nodup.map_on _ sorted
      intro name member name' member' same
      exact List.singleton_inj.mp (pathBelow_injective (listed member) (listed member') down same)
    · intro group sorted
      obtain ⟨⟨name, tree⟩, present, rfl⟩ := List.mem_map.mp (List.mem_mergeSort.mp sorted)
      exact ih _ present (down.entry (plain present))
    · apply (ascending_filesBelow distinct base).imp_of_mem
      intro group group' sorted sorted' less
      obtain ⟨⟨name, tree⟩, present, rfl⟩ := List.mem_map.mp (List.mem_mergeSort.mp sorted)
      obtain ⟨⟨name', tree'⟩, present', rfl⟩ := List.mem_map.mp (List.mem_mergeSort.mp sorted')
      have apart : name ≠ name' := fun same => String.lt_irrefl name' (same ▸ less)
      exact disjoint_filesBelow (plain present) (plain present') (deeper _ present)
        (deeper _ present') apart down
    · -- A file of the directory has a way of one name, a file below an entry has a longer one.
      intro path here path' there same
      obtain ⟨name, sorted, rfl⟩ := List.mem_map.mp here
      obtain ⟨group, sorted', inside⟩ := List.mem_flatMap.mp there
      obtain ⟨⟨name', tree⟩, present, rfl⟩ := List.mem_map.mp (List.mem_mergeSort.mp sorted')
      obtain ⟨rest, nonempty, isPlain, rfl⟩ :=
        exists_way_of_mem (plain present) (deeper _ present) inside
      have ways : [name] = name' :: rest := pathBelow_injective (listed sorted) isPlain down same
      exact nonempty (List.cons.inj ways).2.symm

theorem classFilesIn_of_sorted {entries : List (String × FileTree)}
    (sorted : (Table.keys entries).Pairwise (· ≤ ·))
    (base : String) : classFilesIn base (dir entries) =
      (entries.filterMap classFile?).map (joinPath base) ++ entries.flatMap fun entry =>
        (filesBelow base entry).2 := by
  have here : Text.sortTexts (entries.filterMap classFile?) = entries.filterMap classFile? := by
    apply List.mergeSort_of_pairwise
    simpa using sorted.sublist (classFile?_sublist entries)
  have below : ((entries.map (filesBelow base)).mergeSort fun a b => a.1 ≤ b.1) =
      entries.map (filesBelow base) := by
    apply List.mergeSort_of_pairwise
    rw [List.pairwise_map]
    exact (List.pairwise_map.mp sorted).imp fun le => decide_eq_true le
  rw [classFilesIn_dir, here, below, List.flatMap_map]

/-- The same directories and files, the entries of each directory being stored in any order. -/
inductive Reordered : FileTree → FileTree → Prop
  | file (content : List UInt8) : Reordered (.file content) (.file content)
  | dir {entries entries' : List (String × FileTree)}
      (names : (Table.keys entries).Perm (Table.keys entries'))
      (deeper : ∀ name tree tree', (name, tree) ∈ entries → (name, tree') ∈ entries' →
        Reordered tree tree') :
      Reordered (.dir entries) (.dir entries')

namespace Reordered

variable {tree tree' : FileTree}

theorem refl (wellFormed : WellFormed tree) : Reordered tree tree := by
  induction wellFormed with
  | file content => exact .file content
  | dir distinct _ _ ih =>
    refine .dir (.refl _) ?_
    intro name tree tree' present present'
    cases (Table.get?_of_mem distinct present).symm.trans (Table.get?_of_mem distinct present')
    exact ih _ present

theorem of_perm {entries entries' : List (String × FileTree)}
    (wellFormed : WellFormed (.dir entries)) (perm : entries.Perm entries') :
    Reordered (.dir entries) (.dir entries') := by
  cases refl wellFormed with
  | dir _ deeper =>
    refine .dir (perm.map Prod.fst) ?_
    intro name tree tree' present present'
    exact deeper name tree tree' present (perm.mem_iff.mpr present')

theorem symm (reordered : Reordered tree tree') : Reordered tree' tree := by
  induction reordered with
  | file content => exact .file content
  | dir names _ ih =>
    exact .dir names.symm fun name tree tree' here there => ih name tree' tree there here

theorem isDir (reordered : Reordered tree tree') : tree'.isDir = tree.isDir := by
  cases reordered <;> rfl

theorem exists_entry {entries entries' : List (String × FileTree)}
    (names : (Table.keys entries).Perm (Table.keys entries'))
    {name : String} {tree : FileTree} (present : (name, tree) ∈ entries) :
    ∃ tree', (name, tree') ∈ entries' := by
  have listed : name ∈ Table.keys entries' := names.mem_iff.mp (List.mem_map.mpr ⟨_, present, rfl⟩)
  obtain ⟨⟨_, tree'⟩, present', rfl⟩ := List.mem_map.mp listed
  exact ⟨tree', present'⟩

theorem wellFormed (reordered : Reordered tree tree') (before : WellFormed tree) :
    WellFormed tree' := by
  induction reordered with
  | file content => exact before
  | @dir entries entries' names _ ih =>
    cases before with
    | dir distinct plain deeper =>
      refine .dir (names.nodup_iff.mp distinct) ?_ ?_
      · rintro ⟨name, tree'⟩ present'
        obtain ⟨tree, present⟩ := exists_entry names.symm present'
        have named := plain _ present
        exact named
      · rintro ⟨name, tree'⟩ present'
        obtain ⟨tree, present⟩ := exists_entry names.symm present'
        exact ih name tree tree' present present' (deeper _ present)

theorem lookup (reordered : Reordered tree tree') (before : WellFormed tree) {way : List String}
    {found : FileTree} (there : tree.lookup way = some found) :
    ∃ found', tree'.lookup way = some found' ∧ Reordered found found' := by
  induction way generalizing tree tree' with
  | nil =>
    cases there
    exact ⟨tree', rfl, reordered⟩
  | cons name rest ih =>
    obtain ⟨middle, entry, later⟩ := lookup_cons_eq_some.mp there
    have after := reordered.wellFormed before
    cases reordered with
    | file => cases entry
    | @dir entries entries' names deeper =>
      cases before with
      | dir _ _ below =>
        cases after with
        | dir distinct _ _ =>
          have present := Table.mem_of_get? entry
          obtain ⟨middle', present'⟩ := exists_entry names present
          obtain ⟨found', there', same⟩ :=
            ih (deeper name _ _ present present') (below _ present) later
          exact ⟨found', (lookup_dir_cons distinct).mpr ⟨middle', present', there'⟩, same⟩

theorem keeps (reordered : Reordered tree tree') (before : WellFormed tree) : Keeps tree tree' := by
  intro way found there
  obtain ⟨found', there', same⟩ := reordered.lookup before there
  exact ⟨found', there', same.isDir⟩

theorem mem_map_iff {α : Type} {entries entries' : List (String × FileTree)}
    {f : String × FileTree → α} (names : (Table.keys entries).Perm (Table.keys entries'))
    (same : ∀ name tree tree', (name, tree) ∈ entries → (name, tree') ∈ entries' →
      f (name, tree') = f (name, tree))
    (x : α) : x ∈ entries'.map f ↔ x ∈ entries.map f := by
  rw [List.mem_map, List.mem_map]
  constructor
  · rintro ⟨⟨name, tree'⟩, present', rfl⟩
    obtain ⟨tree, present⟩ := exists_entry names.symm present'
    exact ⟨(name, tree), present, (same name tree tree' present present').symm⟩
  · rintro ⟨⟨name, tree⟩, present, rfl⟩
    obtain ⟨tree', present'⟩ := exists_entry names present
    exact ⟨(name, tree'), present', same name tree tree' present present'⟩

theorem classFilesIn_eq (reordered : Reordered tree tree') (before : WellFormed tree)
    (base : String) :
    classFilesIn base tree' = classFilesIn base tree := by
  induction reordered generalizing base with
  | file content => rfl
  | @dir entries entries' names deeper ih =>
    have after := (Reordered.dir names deeper).wellFormed before
    cases before with
    | dir distinct _ below =>
      cases after with
      | dir distinct' _ _ =>
        have here : Text.sortTexts (entries'.filterMap classFile?) =
            Text.sortTexts (entries.filterMap classFile?) := by
          apply eq_of_strict id (Text.strict_sortTexts (nodup_classFile? distinct'))
            (Text.strict_sortTexts (nodup_classFile? distinct))
          intro name
          rw [Text.mem_sortTexts, Text.mem_sortTexts, List.mem_filterMap, List.mem_filterMap,
            ← List.mem_map, ← List.mem_map]
          apply mem_map_iff names
          intro name tree tree' present present'
          rw [classFile?, classFile?, (deeper name tree tree' present present').isDir]
        have groups : ((entries'.map (filesBelow base)).mergeSort fun a b => a.1 ≤ b.1) =
            (entries.map (filesBelow base)).mergeSort fun a b => a.1 ≤ b.1 := by
          apply eq_of_strict Prod.fst (ascending_filesBelow distinct' base)
            (ascending_filesBelow distinct base)
          intro group
          rw [List.mem_mergeSort, List.mem_mergeSort]
          apply mem_map_iff names
          intro name tree tree' present present'
          rw [filesBelow, filesBelow, ih name tree tree' present present' (below _ present)]
        rw [classFilesIn_dir, classFilesIn_dir, here, groups]

end Reordered

end FileTree

namespace Disk

open FileTree

variable {disk : Disk} {dir : String}

/-- A regular file below a directory that has the name of a class file, by the way to it from the
root. -/
structure ClassFileBelow (disk : Disk) (dir : String) (way : List String) : Prop where
  below : ∃ top tree rest, disk.locate dir = .ok (top, tree) ∧ rest ≠ [] ∧ way = top ++ rest
  isFile : ∃ content, disk.root.lookup way = some (.file content)
  named : EndsInClass way

def leadsTo (disk : Disk) (way : List String) (path : String) : Bool :=
  (disk.locate path).toOption.map Prod.fst == some way

theorem leadsTo_eq_true {way : List String} {path : String} :
    disk.leadsTo way path = true ↔ ∃ tree, disk.locate path = .ok (way, tree) := by
  rw [leadsTo, beq_iff_eq]
  cases disk.locate path with
  | error e => simp [Except.toOption]
  | ok place => simp [Except.toOption, Prod.ext_iff]

theorem locate_folderBelow (wellFormed : disk.root.WellFormed) (rooted : isAbsolute disk.cwd = true)
    {top way : List String} {tree found : FileTree} (place : disk.locate dir = .ok (top, tree))
    (there : tree.lookup way = some found) (isDir : found.isDir = true) :
    disk.locate (joinPath (pathBelow (absolute disk.cwd dir) way) "") =
    .ok (top ++ way, found) := by
  have inside : disk.root.lookup (top ++ way) = some found :=
    lookup_append_eq_some.mpr ⟨tree, locate_lookup place, there⟩
  have named := (wellFormed.lookup inside).2
  have plain : ∀ part ∈ way, PlainName part := by
    intro part member
    exact (named part (List.mem_append_right top member)).toPlainName
  have base := absolute_downward rooted dir
  have down := downward_pathBelow plain base
  have names : steps (joinPath (pathBelow (absolute disk.cwd dir) way) "") = top ++ way := by
    calc
      steps (joinPath (pathBelow (absolute disk.cwd dir) way) "") =
        steps (pathBelow (absolute disk.cwd dir) way) ++ [] :=
        steps_joinPath (ne_empty_of_isAbsolute down.rooted) (by simp)
      _ = steps (absolute disk.cwd dir) ++
          way := by rw [List.append_nil, steps_pathBelow plain base]
      _ = top ++ way := by rw [← way_of_locate rooted place]
  rw [← names] at inside named ⊢
  apply locate_of_lookup (down.join (by simp) (by decide)) inside isDir
  intro part member
  exact (named part member).short

theorem locate_pathBelow (wellFormed : disk.root.WellFormed) (rooted : isAbsolute disk.cwd = true)
    {top way : List String} {tree : FileTree} {content : List UInt8}
    (place : disk.locate dir = .ok (top, tree)) (nonempty : way ≠ [])
    (there : tree.lookup way = some (.file content)) :
    disk.locate (pathBelow (absolute disk.cwd dir) way) = .ok (top ++ way, .file content) := by
  have named := (wellFormed.lookup (lookup_append_eq_some.mpr ⟨tree, locate_lookup place, there⟩)).2
  obtain ⟨front, name, rfl⟩ := (List.eq_nil_or_concat' way).resolve_left nonempty
  obtain ⟨middle, here, last⟩ := lookup_append_eq_some.mp there
  obtain ⟨_, entry, done⟩ := lookup_cons_eq_some.mp last
  cases done
  have own : EntryName name := named name (by simp)
  have plain : ∀ part ∈ front, PlainName part := by
    intro part member
    exact (named part (by simp [member])).toPlainName
  have present :=
    ne_empty_of_isAbsolute (downward_pathBelow plain (absolute_downward rooted dir)).rooted
  have path : pathBelow (absolute disk.cwd dir) (front ++ [name]) =
      joinPath (pathBelow (absolute disk.cwd dir) front) name := List.foldl_concat ..
  rw [path, locate_entry present own.toPlainName,
    locate_folderBelow wellFormed rooted place here (isDir_of_get? entry)]
  change (middle.child name >>= _) = _
  rw [child_eq_ok.mpr ⟨own.short, entry⟩, ← List.append_assoc]
  rfl

theorem classFiles_of_locate {top : List String} {tree : FileTree}
    (place : disk.locate dir = .ok (top, tree)) :
    disk.classFiles dir = classFilesIn (absolute disk.cwd dir) tree := by
  rw [classFiles, find_eq_ok.mpr ⟨top, place⟩]

theorem classFiles_of_error {e : FileError} (failed : disk.locate dir = .error e) :
    disk.classFiles dir = [] := by
  rw [classFiles, find, failed]
  rfl

/-- What is listed: the paths of the class files below the directory, each of which leads to its
file. -/
theorem mem_classFiles (wellFormed : disk.root.WellFormed) {path : String} :
    path ∈ disk.classFiles dir ↔ ∃ top tree way content, disk.locate dir = .ok (top, tree) ∧
      tree.lookup way = some (.file content) ∧ EndsInClass way ∧
      path = pathBelow (absolute disk.cwd dir) way := by
  cases found : disk.locate dir with
  | error e => simp [classFiles_of_error found]
  | ok place =>
    obtain ⟨top, tree⟩ := place
    rw [classFiles_of_locate found, mem_classFilesIn (wellFormed.lookup (locate_lookup found)).1]
    constructor
    · rintro ⟨way, content, listed⟩
      exact ⟨top, tree, way, content, rfl, listed⟩
    · rintro ⟨_, _, way, content, same, listed⟩
      cases same
      exact ⟨way, content, listed⟩

theorem nodup_classFiles (wellFormed : disk.root.WellFormed) (rooted : isAbsolute disk.cwd = true) :
    (disk.classFiles dir).Nodup := by
  cases found : disk.locate dir with
  | error e =>
    rw [classFiles_of_error found]
    exact List.nodup_nil
  | ok place =>
    rw [classFiles_of_locate found]
    exact nodup_classFilesIn (wellFormed.lookup (locate_lookup found)).1
      (absolute_downward rooted dir)

theorem classFileBelow_of_mem (wellFormed : disk.root.WellFormed)
    (rooted : isAbsolute disk.cwd = true) {path : String}
    (member : path ∈ disk.classFiles dir) : ∃ way content, disk.ClassFileBelow dir way ∧
      disk.locate path = .ok (way, .file content) := by
  obtain ⟨top, tree, rest, content, place, there, ends, rfl⟩ :=
    (mem_classFiles wellFormed).mp member
  refine ⟨top ++ rest, content, ⟨⟨top, tree, rest, place, ends.ne_nil, rfl⟩, ⟨content, ?_⟩, ?_⟩, ?_⟩
  · exact lookup_append_eq_some.mpr ⟨tree, locate_lookup place, there⟩
  · exact (endsInClass_append ends.ne_nil).mpr ends
  · exact locate_pathBelow wellFormed rooted place ends.ne_nil there

theorem countP_leadsTo (wellFormed : disk.root.WellFormed) (rooted : isAbsolute disk.cwd = true)
    {way : List String} (file : disk.ClassFileBelow dir way) :
    (disk.classFiles dir).countP (disk.leadsTo way) = 1 := by
  obtain ⟨⟨top, tree, rest, place, nonempty, rfl⟩, ⟨content, there⟩, ends⟩ := file
  obtain ⟨_, start, below⟩ := lookup_append_eq_some.mp there
  cases start.symm.trans (locate_lookup place)
  have member : pathBelow (absolute disk.cwd dir) rest ∈ disk.classFiles dir :=
    (mem_classFiles wellFormed).mpr
      ⟨top, tree, rest, content, place, below, (endsInClass_append nonempty).mp ends, rfl⟩
  have only : ∀ path ∈ disk.classFiles dir,
      disk.leadsTo (top ++ rest) path = true ↔
      (path == pathBelow (absolute disk.cwd dir) rest) = true := by
    intro path listed
    rw [leadsTo_eq_true, beq_iff_eq]
    constructor
    · rintro ⟨_, leads⟩
      obtain ⟨_, _, way, _, again, there, ends, rfl⟩ := (mem_classFiles wellFormed).mp listed
      cases place.symm.trans again
      have same := (locate_pathBelow wellFormed rooted place ends.ne_nil there).symm.trans leads
      rw [List.append_cancel_left (congrArg Prod.fst (Except.ok.inj same))]
    · rintro rfl
      exact ⟨_, locate_pathBelow wellFormed rooted place nonempty below⟩
  rw [List.countP_congr only]
  exact List.count_eq_one_of_mem (nodup_classFiles wellFormed rooted) member

theorem locate_reordered (wellFormed : disk.root.WellFormed) {root' : FileTree}
    (reordered : disk.root.Reordered root') {path : String} {way : List String} {tree : FileTree}
    (place : disk.locate path = .ok (way, tree)) :
    ∃ tree', Disk.locate { disk with root := root' } path = .ok (way, tree') ∧
      tree.Reordered tree' := by
  obtain ⟨tree', place'⟩ : ∃ tree', Disk.locate { disk with root := root' } path =
      .ok (way, tree') :=
    locate_keeps place (reordered.keeps wellFormed) rfl
  obtain ⟨_, there, same⟩ := reordered.lookup wellFormed (locate_lookup place)
  cases there.symm.trans (locate_lookup place')
  exact ⟨tree', place', same⟩

theorem sameClasses_of_reordered (wellFormed : disk.root.WellFormed)
    (rooted : isAbsolute disk.cwd = true) {root' : FileTree}
    (reordered : disk.root.Reordered root') (dir : String) :
    SameClasses dir disk { disk with root := root' } := by
  cases before : disk.locate dir with
  | error e =>
    cases after : Disk.locate { disk with root := root' } dir with
    | ok place' =>
      obtain ⟨_, impossible, _⟩ :=
        locate_reordered (reordered.wellFormed wellFormed) reordered.symm after
      cases before.symm.trans impossible
    | error e' =>
      refine ⟨rfl, ?_, ?_, ?_⟩
      · rw [isDir, isDir, find, find, before, after]
        rfl
      · rw [classFiles_of_error before, classFiles_of_error after]
      · simp [classFiles_of_error before]
  | ok place =>
    obtain ⟨top, tree⟩ := place
    obtain ⟨tree', after, same⟩ := locate_reordered wellFormed reordered before
    refine ⟨rfl, ?_, ?_, ?_⟩
    · rw [isDir, isDir, find_eq_ok.mpr ⟨top, before⟩, find_eq_ok.mpr ⟨top, after⟩]
      exact same.isDir
    · rw [classFiles_of_locate before, classFiles_of_locate after]
      exact same.classFilesIn_eq (wellFormed.lookup (locate_lookup before)).1 _
    · intro path member
      obtain ⟨way, content, _, leads⟩ := classFileBelow_of_mem wellFormed rooted member
      obtain ⟨file, leads', kept⟩ := locate_reordered wellFormed reordered leads
      cases kept
      rw [read, read, find_eq_ok.mpr ⟨way, leads⟩, find_eq_ok.mpr ⟨way, leads'⟩]

end Disk

end Files

namespace ClassFile

def Reader.Yields {α : Type} (P : α → Prop) (reader : Reader α) : Prop :=
  ∀ start value rest, reader.run start = .ok (value, rest) → P value

theorem Reader.Yields.bind {α β : Type} {P : β → Prop} {reader : Reader α} {f : α → Reader β}
    (each : ∀ a, Yields P (f a)) :
    Yields P (reader >>= f) := by
  intro start value rest run
  rw [StateT.run_bind] at run
  obtain ⟨⟨a, middle⟩, _, later⟩ := bind_eq_ok.mp run
  exact each a middle value rest later

theorem Reader.Yields.pure {α : Type} {P : α → Prop} {value : α} (holds : P value) :
    Yields P (Pure.pure value) := by
  intro start result rest run
  cases run
  exact holds

theorem named_of_parse {bytes : List UInt8} {path : String} {type : CompiledType}
    (accepted : CompiledType.parse bytes path = .ok type) : type.path = path ∧
    ∃ internalName, type.name = dotted internalName := by
  have yields :
      Reader.Yields (fun type => type.path = path ∧ ∃ internalName, type.name = dotted internalName)
        (readType path) := by
    refine .bind fun _ => .bind fun _ => .bind fun _ => .bind fun _ => .bind fun _ =>
      .bind fun _ => ?_
    refine .bind fun _ => .bind fun _ => .bind fun _ => .bind fun _ => .bind fun _ =>
      .bind fun name => ?_
    dsimp only
    split
    · exact .bind fun _ => .pure ⟨rfl, name, rfl⟩
    · exact .bind fun _ => .pure ⟨rfl, name, rfl⟩
  obtain ⟨rest, run⟩ := parse_eq_ok.mp accepted
  exact yields _ _ _ run

end ClassFile

namespace Project

open Files ClassFile

theorem path_of_readType {disk : Disk} {path : String} {type : CompiledType}
    (accepted : readType disk path = .ok type) :
    type.path = path := by
  unfold readType at accepted
  split at accepted
  · cases accepted
  · split at accepted
    · cases accepted
    · rename_i parsed
      cases accepted
      exact (named_of_parse parsed).1

namespace LoadedTypes

variable {disk : Disk}

theorem types_addFile (path : String) (loaded : LoadedTypes) :
    (loaded.addFile disk path).1.types = loaded.types ++ (readType disk path).toOption.toList := by
  unfold addFile
  cases readType disk path with
  | error reason => exact (List.append_nil _).symm
  | ok type => rfl

theorem skipped_addFile (path : String) (loaded : LoadedTypes) :
    (loaded.addFile disk path).1.skipped = loaded.skipped ++ if (readType disk path).isOk then []
    else [path] := by
  unfold addFile
  cases readType disk path with
  | error reason => rfl
  | ok type => exact (List.append_nil _).symm

theorem types_addFiles (files : List String) (loaded : LoadedTypes) :
    (addFiles disk files loaded).1.types = loaded.types ++ files.filterMap fun path =>
      (readType disk path).toOption := by
  induction files generalizing loaded with
  | nil => exact (List.append_nil _).symm
  | cons path rest ih =>
    simp only [addFiles]
    rw [ih, types_addFile, List.append_assoc, List.filterMap_cons]
    cases (readType disk path).toOption <;> rfl

theorem skipped_addFiles (files : List String) (loaded : LoadedTypes) :
    (addFiles disk files loaded).1.skipped = loaded.skipped ++ files.filter fun path =>
      !(readType disk path).isOk := by
  induction files generalizing loaded with
  | nil => exact (List.append_nil _).symm
  | cons path rest ih =>
    simp only [addFiles]
    rw [ih, skipped_addFile, List.append_assoc, List.filter_cons]
    cases (readType disk path).isOk <;> rfl

def Indexed (loaded : LoadedTypes) : Prop :=
  ∀ name, loaded.paths.get? name =
    (loaded.types.reverse.find? fun type => type.name = name).map CompiledType.path

theorem Indexed.add {loaded : LoadedTypes} (indexed : loaded.Indexed) (type : CompiledType) :
    (loaded.add type type.path).1.Indexed := by
  intro name
  simp only [LoadedTypes.add]
  rw [Table.get?_put, List.reverse_append, List.reverse_singleton, List.singleton_append,
    List.find?_cons]
  by_cases same : type.name = name
  · simp [same]
  · simp only [same, ↓reduceIte, decide_false]
    exact indexed name

theorem Indexed.addFile {loaded : LoadedTypes} (indexed : loaded.Indexed) (disk : Disk)
    (path : String) :
    (loaded.addFile disk path).1.Indexed := by
  unfold LoadedTypes.addFile
  cases accepted : readType disk path with
  | error reason => exact indexed
  | ok type =>
    obtain rfl := path_of_readType accepted
    exact indexed.add type

theorem Indexed.addFiles {loaded : LoadedTypes} (indexed : loaded.Indexed) (disk : Disk)
    (files : List String) :
    (LoadedTypes.addFiles disk files loaded).1.Indexed := by
  induction files generalizing loaded with
  | nil => exact indexed
  | cons path rest ih => exact ih (indexed.addFile disk path)

theorem types_ofDir (disk : Disk) (dir : String) : (ofDir disk dir).1.types =
    (disk.classFiles dir).filterMap fun path => (readType disk path).toOption :=
  types_addFiles (disk.classFiles dir) { root := absolute disk.cwd dir }

theorem skipped_ofDir (disk : Disk) (dir : String) : (ofDir disk dir).1.skipped =
    (disk.classFiles dir).filter fun path => !(readType disk path).isOk :=
  skipped_addFiles (disk.classFiles dir) { root := absolute disk.cwd dir }

theorem readType_of_mem {dir : String} {type : CompiledType}
    (member : type ∈ (ofDir disk dir).1.types) :
    readType disk type.path = .ok type := by
  rw [types_ofDir] at member
  obtain ⟨path, _, found⟩ := List.mem_filterMap.mp member
  cases accepted : readType disk path with
  | error reason =>
    rw [accepted] at found
    cases found
  | ok other =>
    rw [accepted] at found
    cases found
    rw [path_of_readType accepted, accepted]

theorem paths_filterMap (files : List String) :
    (files.filterMap fun path => (readType disk path).toOption).map CompiledType.path =
      files.filter fun path => (readType disk path).isOk := by
  induction files with
  | nil => rfl
  | cons path rest ih =>
    rw [List.filterMap_cons, List.filter_cons]
    cases accepted : readType disk path with
    | error reason => exact ih
    | ok type =>
      change type.path :: _ = path :: _
      rw [path_of_readType accepted]
      exact congrArg _ ih

end LoadedTypes

/-- Discovery and loading lose nothing and count nothing twice. -/
theorem ofDir_complete {disk : Disk} (wellFormed : disk.root.WellFormed)
    (rooted : isAbsolute disk.cwd = true) (dir : String) :
    let files := disk.classFiles dir
    let loaded := (LoadedTypes.ofDir disk dir).1
    (∀ way, disk.ClassFileBelow dir way → files.countP (disk.leadsTo way) = 1) ∧
      (∀ path ∈ files, ∃ way, disk.ClassFileBelow dir way ∧ disk.leadsTo way path = true) ∧
        (∀ root', disk.root.Reordered root' →
        Disk.classFiles { disk with root := root' } dir = files ∧
        (LoadedTypes.ofDir { disk with root := root' } dir).1 = loaded) ∧
      (loaded.types.map CompiledType.path, loaded.skipped) =
      files.partition (fun path => (readType disk path).isOk) ∧
      (∀ path ∈ files, (loaded.types.map CompiledType.path).count path +
        loaded.skipped.count path = 1) ∧
        (∀ type ∈ loaded.types, readType disk type.path = .ok type) ∧
      ∀ name, loaded.paths.get? name =
        (loaded.types.reverse.find? fun type => type.name = name).map CompiledType.path := by
  intro files loaded
  have accepted : loaded.types.map CompiledType.path = files.filter fun path =>
      (readType disk path).isOk := by
    rw [LoadedTypes.types_ofDir, LoadedTypes.paths_filterMap]
  have refused : loaded.skipped = files.filter fun path => !(readType disk path).isOk :=
    LoadedTypes.skipped_ofDir disk dir
  refine ⟨?_, ?_, ?_, ?_, ?_, ?_, ?_⟩
  · intro way file
    exact Disk.countP_leadsTo wellFormed rooted file
  · intro path member
    obtain ⟨way, content, file, leads⟩ := Disk.classFileBelow_of_mem wellFormed rooted member
    exact ⟨way, file, Disk.leadsTo_eq_true.mpr ⟨_, leads⟩⟩
  · intro root' reordered
    have same := Disk.sameClasses_of_reordered wellFormed rooted reordered dir
    exact ⟨same.files, ofDir_of_sameClasses same⟩
  · rw [List.partition_eq_filter_filter, accepted, refused]
    rfl
  · intro path member
    have all : (loaded.types.map CompiledType.path ++ loaded.skipped).Perm files := by
      rw [accepted, refused]
      exact List.filter_append_perm _ files
    rw [← List.count_append, all.count_eq]
    exact List.count_eq_one_of_mem (Disk.nodup_classFiles wellFormed rooted) member
  · intro type member
    exact LoadedTypes.readType_of_mem member
  · have empty : LoadedTypes.Indexed { root := absolute disk.cwd dir } := fun _ => rfl
    exact empty.addFiles disk files

def bareClass : List UInt8 :=
  [0xCA, 0xFE, 0xBA, 0xBE, 0, 0, 0, 52, 0, 3, 1, 0, 1, 0x41, 7, 0, 1, 0, 0x21, 0, 2, 0, 0, 0, 0,
    0, 0, 0, 0, 0, 0]

/-- Two class files of one type, one of them deeper, and one that is broken. -/
def shelf : List (String × FileTree) :=
  [("A.class", .file bareClass), ("B.class", .file []), ("notes", .file []),
    ("z", .dir [("A.class", .file bareClass)])]

def shelfDisk : Disk := { root := .dir shelf }

theorem shelf_wellFormed : shelfDisk.root.WellFormed := by
  refine .dir (by decide) (by decide) ?_
  simp only [shelf, List.forall_mem_cons]
  refine ⟨.file _, .file _, .file _, .dir (by decide) (by decide) ?_, by simp⟩
  exact List.forall_mem_singleton.mpr (.file _)

theorem shelf_classFiles : shelfDisk.classFiles "/" = ["/A.class", "/B.class", "/z/A.class"] := by
  have place : shelfDisk.locate "/" = .ok ([], .dir shelf) := rfl
  have base : absolute shelfDisk.cwd "/" = "/" := by decide
  have joined : joinPath "/" "z" = "/z" := by decide
  have files (path : String) (content : List UInt8) :
      classFilesIn path (.file content) = [] := by rw [classFilesIn]
  have below : classFilesIn "/z" (.dir [("A.class", .file bareClass)]) = ["/z/A.class"] := by
    rw [FileTree.classFilesIn_of_sorted (by decide)]
    decide
  rw [Disk.classFiles_of_locate place, base, FileTree.classFilesIn_of_sorted (by decide)]
  simp only [shelf, List.flatMap_cons, List.flatMap_nil, FileTree.filesBelow, files, joined, below,
    List.nil_append, List.append_nil]
  decide

theorem ofDir_complete_shelf :
    shelfDisk.root.WellFormed ∧ shelfDisk.ClassFileBelow "/" ["z", "A.class"] ∧
      (shelfDisk.classFiles "/").countP (shelfDisk.leadsTo ["z", "A.class"]) = 1 ∧
      Disk.classFiles { shelfDisk with root := .dir shelf.reverse } "/" =
      ["/A.class", "/B.class", "/z/A.class"] ∧
      (LoadedTypes.ofDir shelfDisk "/").1.types.map CompiledType.path = ["/A.class", "/z/A.class"] ∧
      (LoadedTypes.ofDir shelfDisk "/").1.skipped = ["/B.class"] ∧
      (LoadedTypes.ofDir shelfDisk "/").1.paths.get? "A" = some "/z/A.class" := by
  obtain ⟨once, _, stored, split, _, _, last⟩ := ofDir_complete shelf_wellFormed rfl "/"
  have deeper : shelfDisk.ClassFileBelow "/" ["z", "A.class"] :=
    ⟨⟨[], _, ["z", "A.class"], rfl, by decide, rfl⟩, ⟨bareClass, rfl⟩, ⟨"A.class", rfl, by decide⟩⟩
  have parts :
      ["/A.class", "/B.class", "/z/A.class"].partition
        (fun path => (readType shelfDisk path).isOk) =
      (["/A.class", "/z/A.class"], ["/B.class"]) := by decide +kernel
  rw [shelf_classFiles, parts, Prod.mk.injEq] at split
  refine ⟨shelf_wellFormed, deeper, once _ deeper, ?_, split.1, split.2, ?_⟩
  · rw [(stored _ (.of_perm shelf_wellFormed (List.reverse_perm shelf).symm)).1, shelf_classFiles]
  · rw [last, LoadedTypes.types_ofDir, shelf_classFiles]
    decide +kernel

end Project

end CallAtlas
