import CallAtlas.Files.Disk
import CallAtlas.Proofs.Identifiers
import CallAtlas.Proofs.Outcomes
import CallAtlas.Proofs.Tables

/-!
Writing a file into a directory: it has the new content from then on, and the other files of the
directory keep theirs.
-/

namespace CallAtlas

namespace Text

theorem splitAtEach_ne_nil (c : Char) (s : List Char) : splitAtEach c s ≠ [] := by
  cases s with
  | nil => exact List.cons_ne_nil _ _
  | cons x rest =>
    rw [splitAtEach]
    split
    · exact List.cons_ne_nil _ _
    · split <;> exact List.cons_ne_nil _ _

theorem splitAtEach_append (c : Char) (s t : List Char) :
    splitAtEach c (s ++ c :: t) = splitAtEach c s ++ splitAtEach c t := by
  induction s with
  | nil => simp [splitAtEach]
  | cons x s ih =>
    rw [List.cons_append, splitAtEach, splitAtEach, ih]
    by_cases here : x = c
    · simp [here]
    · obtain ⟨part, parts, split⟩ := List.exists_cons_of_ne_nil (splitAtEach_ne_nil c s)
      simp [here, split]

theorem splitAtEach_of_notMem {c : Char} {s : List Char} (absent : c ∉ s) :
    splitAtEach c s = [s] := by
  induction s with
  | nil => rfl
  | cons x s ih =>
    rw [List.mem_cons, not_or] at absent
    rw [splitAtEach, if_neg (Ne.symm absent.1), ih absent.2]

end Text

namespace Files

structure PlainName (name : String) : Prop where
  nonempty : name ≠ ""
  notHere : name ≠ "."
  notAbove : name ≠ ".."
  noSlash : '/' ∉ name.toList

instance (name : String) : Decidable (PlainName name) :=
  decidable_of_iff (name ≠ "" ∧ name ≠ "." ∧ name ≠ ".." ∧ '/' ∉ name.toList)
    ⟨fun parts => ⟨parts.1, parts.2.1, parts.2.2.1, parts.2.2.2⟩,
      fun plain => ⟨plain.nonempty, plain.notHere, plain.notAbove, plain.noSlash⟩⟩

theorem components_append (first second : String) :
    components (first ++ "/" ++ second) = components first ++ components second := by
  have chars : (first ++ "/" ++ second).toList = first.toList ++ '/' :: second.toList := by simp
  rw [components, chars, Text.splitAtEach_append, List.map_append]
  rfl

theorem components_plain {name : String} (noSlash : '/' ∉ name.toList) :
    components name = [name] := by
  rw [components, Text.splitAtEach_of_notMem noSlash, List.map_singleton, String.ofList_toList]

theorem isAbsolute_append {first : String} (nonempty : first ≠ "") (second : String) :
    isAbsolute (first ++ second) = isAbsolute first := by
  have chars : first.toList ≠ [] := by simpa using nonempty
  obtain ⟨c, rest, split⟩ := List.exists_cons_of_ne_nil chars
  simp [isAbsolute, split]

theorem isAbsolute_of_noSlash {name : String} (noSlash : '/' ∉ name.toList) :
    isAbsolute name = false := by
  cases chars : name.toList with
  | nil => simp [isAbsolute, chars]
  | cons c rest =>
    rw [chars, List.mem_cons, not_or] at noSlash
    simpa [isAbsolute, chars] using Ne.symm noSlash.1

theorem joinPath_entry {dir : String} (nonempty : dir ≠ "") :
    ∃ front, ∀ name : String, '/' ∉ name.toList → joinPath dir name = front ++ "/" ++ name := by
  have present : dir.isEmpty = false := by simpa [String.isEmpty_iff] using nonempty
  by_cases ends : dir.toList.getLast? = some '/'
  · obtain ⟨front, split⟩ := List.getLast?_eq_some_iff.mp ends
    refine ⟨String.ofList front, ?_⟩
    intro name noSlash
    rw [joinPath, isAbsolute_of_noSlash noSlash]
    apply String.toList_inj.mp
    simp [split]
  · refine ⟨dir, ?_⟩
    intro name noSlash
    rw [joinPath, isAbsolute_of_noSlash noSlash]
    simp [present, ends]

theorem joinPath_rooted (cwd front : String) :
    ∃ whole, ∀ name : String, joinPath cwd (front ++ "/" ++ name) = whole ++ "/" ++ name := by
  have nonempty : front ++ "/" ≠ "" := by simp
  by_cases absolute : isAbsolute (front ++ "/") = true
  · refine ⟨front, ?_⟩
    intro name
    rw [joinPath, isAbsolute_append nonempty, absolute]
    rfl
  · rw [Bool.not_eq_true] at absolute
    by_cases ends : (cwd.isEmpty || decide (cwd.toList.getLast? = some '/')) = true
    · refine ⟨cwd ++ front, ?_⟩
      intro name
      rw [joinPath, isAbsolute_append nonempty, absolute, ends]
      simp [String.append_assoc]
    · rw [Bool.not_eq_true] at ends
      refine ⟨cwd ++ "/" ++ front, ?_⟩
      intro name
      rw [joinPath, isAbsolute_append nonempty, absolute, ends]
      simp [String.append_assoc]

theorem components_entry (cwd : String) {dir : String} (nonempty : dir ≠ "") :
    ∃ base, ∀ name : String, '/' ∉ name.toList →
      components (joinPath cwd (joinPath dir name)) = base ++ [name] := by
  obtain ⟨front, entry⟩ := joinPath_entry nonempty
  obtain ⟨whole, rooted⟩ := joinPath_rooted cwd front
  refine ⟨components whole, ?_⟩
  intro name noSlash
  rw [entry name noSlash, rooted, components_append, components_plain noSlash]

theorem splitLast_entry {dir name : String} (nonempty : dir ≠ "") (noSlash : '/' ∉ name.toList) :
    Disk.splitLast (joinPath dir name) = (joinPath dir "", name) := by
  obtain ⟨front, entry⟩ := joinPath_entry nonempty
  have chars : (front ++ "/" ++ name).toList = front.toList ++ '/' :: name.toList := by simp
  rw [entry name noSlash, entry "" (by simp), Disk.splitLast, chars,
    Text.afterLast_append _ _ _ noSlash]
  refine Prod.ext ?_ (String.ofList_toList)
  rw [List.reverse_append, List.reverse_cons, List.append_assoc,
    List.dropWhile_append_of_pos (Text.reverse_ne_of_notMem noSlash)]
  apply String.toList_inj.mp
  simp

namespace FileTree

def lookup (tree : FileTree) : List String → Option FileTree
  | [] => some tree
  | name :: rest => match Table.get? name tree.entries with
    | some found => found.lookup rest
    | none => none

theorem lookup_cons_eq_some {tree found : FileTree} {name : String} {rest : List String} :
    tree.lookup (name :: rest) = some found ↔
      ∃ middle, Table.get? name tree.entries = some middle ∧ middle.lookup rest = some found := by
  rw [lookup]
  cases Table.get? name tree.entries <;> simp

theorem lookup_append_eq_some {tree found : FileTree} {way rest : List String} :
    tree.lookup (way ++ rest) = some found ↔ ∃ middle, tree.lookup way = some middle ∧
    middle.lookup rest = some found := by
  induction way generalizing tree with
  | nil => simp [lookup]
  | cons first way ih =>
    rw [List.cons_append, lookup, lookup]
    cases Table.get? first tree.entries with
    | none => simp
    | some next => exact ih

theorem lookup_concat {tree middle : FileTree} {way : List String}
    (here : tree.lookup way = some middle) (name : String) :
    tree.lookup (way ++ [name]) = Table.get? name middle.entries := by
  induction way generalizing tree with
  | nil =>
    cases here
    rw [List.nil_append, lookup]
    cases Table.get? name middle.entries <;> rfl
  | cons first way ih =>
    obtain ⟨next, entry, rest⟩ := lookup_cons_eq_some.mp here
    rw [List.cons_append, lookup, entry]
    exact ih rest

theorem isDir_of_get? {tree found : FileTree} {name : String}
    (entry : Table.get? name tree.entries = some found) :
    tree.isDir = true := by
  cases tree with
  | file => cases entry
  | dir => rfl

theorem get?_entries_put (content : FileTree) (name : String) (rest : List String) (tree : FileTree)
    (other : String) :
    Table.get? other (put content (name :: rest) tree).entries =
      if name = other then some (put content rest ((Table.get? name tree.entries).getD (dir [])))
      else Table.get? other tree.entries :=
  Table.get?_put other name _ tree.entries

theorem lookup_put_same (content : FileTree) (way : List String) (tree : FileTree) :
    (put content way tree).lookup way = some content := by
  induction way generalizing tree with
  | nil => rfl
  | cons name rest ih =>
    rw [lookup, get?_entries_put, if_pos rfl]
    exact ih _

theorem lookup_put_sibling {tree middle : FileTree} {way : List String}
    (here : tree.lookup way = some middle) (content : FileTree) {name other : String}
    (apart : name ≠ other) :
    (put content (way ++ [name]) tree).lookup (way ++ [other]) = tree.lookup (way ++ [other]) := by
  induction way generalizing tree with
  | nil => rw [List.nil_append, List.nil_append, lookup, lookup, get?_entries_put, if_neg apart]
  | cons first way ih =>
    obtain ⟨next, entry, rest⟩ := lookup_cons_eq_some.mp here
    rw [List.cons_append, List.cons_append, lookup, lookup, get?_entries_put, if_pos rfl, entry]
    exact ih rest

/-- What was there is there still, and directories are directories. -/
def Keeps (before after : FileTree) : Prop :=
  ∀ way found, before.lookup way = some found → ∃ found', after.lookup way = some found' ∧
    found'.isDir = found.isDir

theorem Keeps.refl (tree : FileTree) : Keeps tree tree := fun _ found there => ⟨found, there, rfl⟩

theorem put_keeps {tree : FileTree} {way : List String} {entries : List (String × FileTree)}
    (here : tree.lookup way = some (dir entries)) {name : String}
    (noDir : ∀ old, Table.get? name entries = some old → old.isDir = false) (content : List UInt8) :
    Keeps tree (put (file content) (way ++ [name]) tree) := by
  induction way generalizing tree with
  | nil =>
    cases here
    rintro (_ | ⟨first, rest⟩) found before
    · cases before
      exact ⟨_, rfl, rfl⟩
    · obtain ⟨middle, entry, later⟩ := lookup_cons_eq_some.mp before
      by_cases same : name = first
      · subst same
        have isFile := noDir middle entry
        cases middle with
        | dir => cases isFile
        | file old =>
          cases rest with
          | nil =>
            cases later
            refine ⟨file content, lookup_cons_eq_some.mpr ⟨file content, ?_, rfl⟩, rfl⟩
            rw [List.nil_append, get?_entries_put, if_pos rfl]
            rfl
          | cons => cases later
      · refine ⟨found, lookup_cons_eq_some.mpr ⟨middle, ?_, later⟩, rfl⟩
        rw [List.nil_append, get?_entries_put, if_neg same]
        exact entry
  | cons next way ih =>
    obtain ⟨child, childEntry, lookup⟩ := lookup_cons_eq_some.mp here
    rintro (_ | ⟨first, rest⟩) found before
    · cases before
      exact ⟨_, rfl, (isDir_of_get? childEntry).symm⟩
    · obtain ⟨middle, entry, later⟩ := lookup_cons_eq_some.mp before
      by_cases same : next = first
      · subst same
        cases childEntry.symm.trans entry
        obtain ⟨found', after, isDir⟩ := ih lookup rest found later
        refine ⟨found', lookup_cons_eq_some.mpr ⟨_, ?_, after⟩, isDir⟩
        rw [List.cons_append, get?_entries_put, if_pos rfl, childEntry, Option.getD_some]
      · refine ⟨found, lookup_cons_eq_some.mpr ⟨middle, ?_, later⟩, rfl⟩
        rw [List.cons_append, get?_entries_put, if_neg same]
        exact entry

/-- `above` are the directories from the root down to `tree`. -/
def Leads (root : FileTree) : List (FileTree × String) → FileTree → Prop
  | [], tree => tree = root
  | (parent, name) :: above, tree =>
    Leads root above parent ∧ Table.get? name parent.entries = some tree

theorem Leads.refl (root : FileTree) : Leads root [] root := rfl

def names (above : List (FileTree × String)) : List String := (above.map Prod.snd).reverse

theorem Leads.lookup {root tree : FileTree} {above : List (FileTree × String)}
    (leads : Leads root above tree) :
    root.lookup (names above) = some tree := by
  induction above generalizing tree with
  | nil =>
    cases leads
    rfl
  | cons step above ih =>
    obtain ⟨parent, name⟩ := step
    obtain ⟨up, entry⟩ := leads
    have way : names ((parent, name) :: above) = names above ++ [name] := by simp [names]
    rw [way, lookup_concat (ih up), entry]

theorem child_eq_ok {tree found : FileTree} {name : String} : tree.child name = .ok found ↔
    (Text.encodeUtf8 name.toList).length ≤ maxName ∧ Table.get? name tree.entries = some found := by
  cases tree with
  | file => simp [child, entries, Table.get?]
  | dir list =>
    rw [child]
    by_cases long : maxName < (Text.encodeUtf8 name.toList).length
    · simp [long, Nat.not_le_of_lt long]
    · rw [if_neg long]
      simp only [Nat.le_of_not_lt long, entries, true_and]
      cases Table.get? name list <;> simp

theorem child_eq_missing {entries : List (String × FileTree)} {name : String} :
    (dir entries).child name = .error .missing ↔
      (Text.encodeUtf8 name.toList).length ≤ maxName ∧ Table.get? name entries = none := by
  rw [child]
  by_cases long : maxName < (Text.encodeUtf8 name.toList).length
  · simp [long, Nat.not_le_of_lt long]
  · simp only [if_neg long, Nat.le_of_not_lt long, true_and]
    cases Table.get? name entries <;> simp

theorem follow_cons (above : List (FileTree × String)) (tree : FileTree) (part : String)
    (rest : List String) :
    follow above tree (part :: rest) =
      if !tree.isDir then .error .notDirectory
      else if part = "" || part = "." then follow above tree rest
      else if part = ".." then follow above.tail ((above.head?.map Prod.fst).getD tree) rest
      else match tree.child part with
        | .error e => .error e
        | .ok found => follow ((tree, part) :: above) found rest := by
  cases above <;> rfl

theorem follow_keeps {root root' : FileTree} (keeps : Keeps root root') {parts : List String}
    {above above' last : List (FileTree × String)} {tree tree' found : FileTree}
    (leads : Leads root above tree) (leads' : Leads root' above' tree')
    (same : above'.map Prod.snd = above.map Prod.snd)
    (run : follow above tree parts = .ok (last, found)) :
    Leads root last found ∧ ∃ last' found', follow above' tree' parts = .ok (last', found') ∧
      last'.map Prod.snd = last.map Prod.snd ∧ Leads root' last' found' := by
  induction parts generalizing above above' tree tree' with
  | nil =>
    cases run
    exact ⟨leads, above', tree', rfl, same, leads'⟩
  | cons part rest ih =>
    have way : names above' = names above := congrArg List.reverse same
    have isDir : tree'.isDir = tree.isDir := by
      obtain ⟨kept, there, isDir⟩ := keeps _ _ leads.lookup
      cases (way ▸ leads'.lookup).symm.trans there
      exact isDir
    rw [follow_cons] at run ⊢
    rw [isDir]
    cases dir : tree.isDir with
    | false => simp [dir] at run
    | true =>
      simp only [dir, Bool.not_true, Bool.false_eq_true, ↓reduceIte] at run ⊢
      by_cases stays : (part = "" || part = ".") = true
      · rw [if_pos stays] at run ⊢
        exact ih leads leads' same run
      · rw [if_neg stays] at run ⊢
        by_cases up : part = ".."
        · rw [if_pos up] at run ⊢
          cases above with
          | nil =>
            cases List.map_eq_nil_iff.mp same
            exact ih leads leads' same run
          | cons step above =>
            cases above' with
            | nil => cases same
            | cons step' above' => exact ih leads.1 leads'.1 (List.cons.inj same).2 run
        · rw [if_neg up] at run ⊢
          cases down : tree.child part with
          | error e =>
            rw [down] at run
            cases run
          | ok next =>
            rw [down] at run
            obtain ⟨short, entry⟩ := child_eq_ok.mp down
            obtain ⟨next', there, _⟩ :=
              keeps (names above ++ [part]) next (by rw [lookup_concat leads.lookup, entry])
            have entry' : Table.get? part tree'.entries = some next' := by
              rw [← way, lookup_concat leads'.lookup] at there
              exact there
            rw [child_eq_ok.mpr ⟨short, entry'⟩]
            have deeper : Leads root ((tree, part) :: above) next := ⟨leads, entry⟩
            have deeper' : Leads root' ((tree', part) :: above') next' := ⟨leads', entry'⟩
            exact ih deeper deeper' (by rw [List.map_cons, List.map_cons, same]) run

theorem follow_append {above : List (FileTree × String)} {tree : FileTree}
    (first second : List String) :
    follow above tree (first ++ second) = follow above tree first >>= fun (above, tree) =>
      follow above tree second := by
  induction first generalizing above tree with
  | nil => rfl
  | cons part rest ih =>
    rw [List.cons_append, follow_cons, follow_cons]
    split
    · rfl
    · split
      · exact ih
      · split
        · exact ih
        · split
          · rfl
          · exact ih

theorem follow_entry {above : List (FileTree × String)} {tree : FileTree} {name : String}
    (plain : PlainName name) :
    follow above tree [name] = tree.child name >>= fun found =>
      pure ((tree, name) :: above, found) := by
  have stays : ¬ (name = "" || name = ".") = true := by simp [plain.nonempty, plain.notHere]
  rw [follow_cons, if_neg stays, if_neg plain.notAbove]
  cases tree with
  | file => rfl
  | dir entries => cases (dir entries).child name <;> rfl

end FileTree

namespace Disk

open FileTree

variable {disk disk' : Disk} {dir name : String}

theorem locate_eq_ok {path : String} {way : List String} {tree : FileTree} :
    disk.locate path = .ok (way, tree) ↔ path.isEmpty = false ∧ ∃ above, disk.root.follow []
    (components (joinPath disk.cwd path)) = .ok (above, tree) ∧
      way = names above := by
  rw [locate]
  cases path.isEmpty with
  | true => simp
  | false =>
    simp only [Bool.false_eq_true, ↓reduceIte, true_and, bind_eq_ok, pure_eq_ok,
      Prod.exists, Prod.mk.injEq]
    constructor
    · rintro ⟨above, _, run, rfl, rfl⟩
      exact ⟨above, run, rfl⟩
    · rintro ⟨above, run, rfl⟩
      exact ⟨above, tree, run, rfl, rfl⟩

theorem locate_lookup {path : String} {way : List String} {tree : FileTree}
    (found : disk.locate path = .ok (way, tree)) :
    disk.root.lookup way = some tree := by
  obtain ⟨_, above, run, rfl⟩ := locate_eq_ok.mp found
  exact (follow_keeps (.refl disk.root) (.refl disk.root) (.refl disk.root) rfl run).1.lookup

theorem locate_keeps {path : String} {way : List String} {tree : FileTree}
    (found : disk.locate path = .ok (way, tree)) (keeps : Keeps disk.root disk'.root)
    (sameStart : disk'.cwd = disk.cwd) :
    ∃ tree', disk'.locate path = .ok (way, tree') := by
  obtain ⟨nonempty, above, run, rfl⟩ := locate_eq_ok.mp found
  obtain ⟨_, above', tree', run', same, _⟩ :=
    follow_keeps keeps (.refl disk.root) (.refl disk'.root) rfl run
  have way : names above' = names above := congrArg List.reverse same
  refine ⟨tree', locate_eq_ok.mpr ⟨nonempty, above', ?_, way.symm⟩⟩
  rw [sameStart]
  exact run'

theorem locate_entry (nonempty : dir ≠ "") (plain : PlainName name) :
    disk.locate (joinPath dir name) = disk.locate (joinPath dir "") >>= fun place =>
      place.2.child name >>= fun found => pure (place.1 ++ [name], found) := by
  obtain ⟨front, entry⟩ := joinPath_entry nonempty
  obtain ⟨base, parts⟩ := components_entry disk.cwd nonempty
  have present (last : String) (noSlash : '/' ∉ last.toList) :
      (joinPath dir last).isEmpty = false := by
    rw [entry last noSlash]
    simp
  rw [locate, locate, present name plain.noSlash, present "" (by simp), parts name plain.noSlash,
    parts "" (by simp), follow_append, follow_append]
  cases follow [] disk.root base with
  | error e => rfl
  | ok place =>
    obtain ⟨above, tree⟩ := place
    change (follow above tree [name] >>= _) = ((follow above tree [""] >>= _) >>= _)
    rw [follow_entry plain]
    cases tree with
    | file => rfl
    | dir entries =>
      have stays : follow above (.dir entries) [""] = .ok (above, .dir entries) := rfl
      rw [stays]
      cases outcome : (FileTree.dir entries).child name <;>
        simp [outcome, bind, Except.bind, pure, Except.pure]

theorem write_of_missing (nonempty : dir ≠ "") (plain : PlainName name) (content : List UInt8)
    (missing : disk.locate (joinPath dir name) = .error .missing) :
    disk.write (joinPath dir name) content = disk.locate (joinPath dir "") >>= fun place =>
      if place.2.isDir then .ok
        { disk with root := FileTree.put (.file content) (place.1 ++ [name]) disk.root }
      else .error .notDirectory := by
  obtain ⟨front, entry⟩ := joinPath_entry nonempty
  have named : name.isEmpty = false := by simpa [String.isEmpty_iff] using plain.nonempty
  have present : (joinPath dir "").isEmpty = false := by
    rw [entry "" (by simp)]
    simp
  rw [write, missing, splitLast_entry nonempty plain.noSlash]
  simp only [named, present, Bool.false_eq_true, ↓reduceIte]
  cases disk.locate (joinPath dir "") with
  | error e => rfl
  | ok place =>
    obtain ⟨way, tree⟩ := place
    cases tree <;> rfl

theorem write_eq_ok (nonempty : dir ≠ "") (plain : PlainName name) {content : List UInt8}
    (written : disk.write (joinPath dir name) content = .ok disk') :
    ∃ way entries, disk.locate (joinPath dir "") = .ok (way, .dir entries) ∧
      (Text.encodeUtf8 name.toList).length ≤ maxName ∧
      (∀ old, Table.get? name entries = some old → old.isDir = false) ∧
      disk' = { disk with root := FileTree.put (.file content) (way ++ [name]) disk.root } := by
  have entry : disk.locate (joinPath dir name) = _ := locate_entry nonempty plain
  cases outcome : disk.locate (joinPath dir name) with
  | ok place =>
    obtain ⟨way, found⟩ := place
    rw [write, outcome] at written
    rw [outcome] at entry
    obtain ⟨⟨front, tree⟩, place, step⟩ := bind_eq_ok.mp entry.symm
    obtain ⟨old, down, finish⟩ := bind_eq_ok.mp step
    cases finish
    obtain ⟨short, listed⟩ := child_eq_ok.mp down
    cases tree with
    | file => cases listed
    | dir entries =>
      cases found with
      | dir => cases written
      | file =>
        cases written
        refine ⟨front, entries, place, short, ?_, rfl⟩
        intro other again
        cases (listed : Table.get? name entries = _).symm.trans again
        rfl
  | error e =>
    cases e with
    | missing =>
      rw [write_of_missing nonempty plain content outcome] at written
      obtain ⟨⟨way, tree⟩, place, step⟩ := bind_eq_ok.mp written
      rw [outcome, place] at entry
      cases tree with
      | file => cases step
      | dir entries =>
        cases step
        have absent : (FileTree.dir entries).child name = .error .missing := by
          cases down : (FileTree.dir entries).child name with
          | error e => simpa [down, bind, Except.bind] using entry.symm
          | ok old => simp [down, bind, Except.bind, pure, Except.pure] at entry
        obtain ⟨short, unlisted⟩ := child_eq_missing.mp absent
        refine ⟨way, entries, place, short, ?_, rfl⟩
        intro old listed
        rw [unlisted] at listed
        cases listed
    | occupied | notDirectory | isDirectory | nameTooLong =>
      rw [write, outcome] at written
      cases written

theorem read_entry (nonempty : dir ≠ "") (plain : PlainName name) {way : List String}
    {tree : FileTree} (place : disk.locate (joinPath dir "") = .ok (way, tree)) :
    disk.read (joinPath dir name) = tree.child name >>= fun found => match found with
      | .file content => pure content
      | .dir _ => throw .isDirectory := by
  rw [read, find, locate_entry nonempty plain, place]
  cases outcome : tree.child name with
  | error e => simp [outcome, bind, Except.bind]
  | ok found => cases found <;> simp [outcome, bind, Except.bind, pure, Except.pure]

/-- After a write the file has the new content, and the other files of the directory are as they
were. -/
theorem read_write (nonempty : dir ≠ "") (plain : PlainName name) {content : List UInt8}
    (written : disk.write (joinPath dir name) content = .ok disk') {other : String}
    (plainOther : PlainName other) :
    disk'.read (joinPath dir other) = if name = other then .ok content
      else disk.read (joinPath dir other) := by
  obtain ⟨way, entries, place, short, noDir, rfl⟩ := write_eq_ok nonempty plain written
  have here := locate_lookup place
  have keeps := put_keeps here noDir content
  obtain ⟨tree, place'⟩ : ∃ tree, Disk.locate
      { disk with root := FileTree.put (.file content) (way ++ [name]) disk.root }
        (joinPath dir "") = .ok (way, tree) :=
    locate_keeps place keeps rfl
  have here' := locate_lookup place'
  have isDir : tree.isDir = true := by
    obtain ⟨kept, there, isDir⟩ := keeps way _ here
    cases here'.symm.trans there
    exact isDir
  cases tree with
  | file => cases isDir
  | dir entries' =>
    rw [read_entry nonempty plainOther place', read_entry nonempty plainOther place]
    by_cases same : name = other
    · subst same
      have listed : Table.get? name entries' = some (.file content) := by
        rw [← lookup_put_same (.file content) (way ++ [name]) disk.root]
        exact (lookup_concat here' name).symm
      have found : (FileTree.dir entries').child name = .ok (.file content) :=
        child_eq_ok.mpr ⟨short, listed⟩
      rw [found, if_pos rfl]
      rfl
    · have listed : Table.get? other entries' = Table.get? other entries := by
        calc
          Table.get? other entries' =
              (FileTree.put (.file content) (way ++ [name]) disk.root).lookup (way ++ [other]) :=
            (lookup_concat here' other).symm
          _ = disk.root.lookup (way ++ [other]) := lookup_put_sibling here (.file content) same
          _ = Table.get? other entries := lookup_concat here other
      rw [if_neg same, child, child, listed]

end Disk

end Files

end CallAtlas
