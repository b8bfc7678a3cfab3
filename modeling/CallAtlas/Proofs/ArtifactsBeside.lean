import CallAtlas.Proofs.ArtifactFiles
import CallAtlas.Proofs.ClassFilesKept

/-! Writing artifacts, wherever they are written, leaves the class files as they are. -/

namespace CallAtlas

namespace Files

open FileTree Relation

namespace FileTree

structure StepName (name : String) : Prop where
  moves : ¬ (name = "" || name = ".") = true
  notAbove : name ≠ ".."
  short : (Text.encodeUtf8 name.toList).length ≤ maxName

theorem follow_names {tree found : FileTree} {way : List String}
    (names : ∀ name ∈ way, StepName name) (there : tree.lookup way = some found)
    (above : List (FileTree × String)) :
    ∃ above', follow above tree way = .ok (above', found) := by
  induction way generalizing tree above with
  | nil =>
    cases there
    exact ⟨above, rfl⟩
  | cons name rest ih =>
    rw [List.forall_mem_cons] at names
    obtain ⟨middle, entry, later⟩ := lookup_cons_eq_some.mp there
    rw [follow_cons, isDir_of_get? entry, if_neg names.1.moves, if_neg names.1.notAbove,
      child_eq_ok.mpr ⟨names.1.short, entry⟩]
    exact ih names.2 later _

theorem lookup_dropLast {tree found : FileTree} {way : List String}
    (there : tree.lookup way = some found) :
    ∃ parent, tree.lookup way.dropLast = some parent := by
  rcases List.eq_nil_or_concat' way with rfl | ⟨front, name, rfl⟩
  · exact ⟨found, there⟩
  · rw [List.dropLast_concat]
    obtain ⟨parent, above, _⟩ := lookup_append_eq_some.mp there
    exact ⟨parent, above⟩

end FileTree

theorem Disk.makeParts_changes {root found : FileTree} {way : List String}
    (names : ∀ name ∈ way, StepName name) (there : root.lookup way = some found)
    (parts : List String) :
    ReflTransGen Adds root (makeParts root way parts).1 := by
  induction parts generalizing root way found with
  | nil => exact .refl
  | cons part rest ih =>
    rw [makeParts]
    split
    · exact ih names there
    · rename_i moves
      split
      · obtain ⟨parent, above⟩ := lookup_dropLast there
        exact ih (fun name member => names name (List.dropLast_subset way member)) above
      · rename_i down
        obtain ⟨above, followed⟩ := follow_names names there []
        simp only [followed]
        have longer (short : (Text.encodeUtf8 part.toList).length ≤ maxName) :
            ∀ name ∈ way ++ [part], StepName name := by
          rw [List.forall_mem_append, List.forall_mem_singleton]
          exact ⟨names, moves, down, short⟩
        split
        · rename_i entries present
          obtain ⟨short, entry⟩ := child_eq_ok.mp present
          exact ih (longer short) ((lookup_concat there part).trans entry)
        · exact .refl
        · rename_i missing
          cases found with
          | file => cases missing
          | dir entries =>
            obtain ⟨short, absent⟩ := child_eq_missing.mp missing
            have adds : Adds root (put (.dir []) (way ++ [part]) root) :=
              adds_put there (absent ▸ .dir)
            exact .head adds (ih (longer short) (lookup_put_same _ _ _))
        · exact .refl

namespace Disk

/-- From the first disk to the second there are harmless changes only. -/
structure Grows (disk disk' : Disk) : Prop where
  cwd : disk'.cwd = disk.cwd
  changes : ReflTransGen Adds disk.root disk'.root

theorem Grows.refl (disk : Disk) : Grows disk disk := ⟨rfl, .refl⟩

theorem Grows.trans {first second third : Disk} (left : Grows first second)
    (right : Grows second third) :
    Grows first third :=
  ⟨right.cwd.trans left.cwd, left.changes.trans right.changes⟩

theorem Grows.sameClasses {disk disk' : Disk} (grows : Grows disk disk') {dir : String}
    (present : disk.isDir dir = true) (straight : disk.Straight dir) :
    SameClasses dir disk disk' := by
  have same := sameClasses_of_changes present straight grows.changes
  rw [← grows.cwd] at same
  exact same

theorem makeDirs_grows (disk : Disk) (path : String) : Grows disk (disk.makeDirs path).1 := by
  rw [makeDirs]
  split
  · exact .refl disk
  · exact ⟨rfl, makeParts_changes (by simp) rfl _⟩

theorem write_grows {disk disk' : Disk} {dir name : String} {content : List UInt8}
    (nonempty : dir ≠ "") (plain : PlainName name) (other : isClassFile name = false)
    (written : disk.write (joinPath dir name) content = .ok disk') : Grows disk disk' := by
  obtain ⟨way, entries, place, _, noDir, rfl⟩ := write_eq_ok nonempty plain written
  exact ⟨rfl, .single (adds_put (locate_lookup place) (.file noDir other content))⟩

end Disk

end Files

namespace Artifact

open Files

theorem isClassFile_endpointFile (endpoint : Endpoint) :
    isClassFile (endpointFile endpoint) = false := by
  rw [endpointFile_eq]
  simp [isClassFile, List.isSuffixOf, List.isPrefixOf]

theorem isClassFile_bodiesFile (endpoint : Endpoint) :
    isClassFile (bodiesFile endpoint) = false := by
  rw [bodiesFile_eq]
  simp [isClassFile, List.isSuffixOf, List.isPrefixOf]

namespace Progress

variable {dir : String}

theorem write_grows (nonempty : dir ≠ "") {name : String} (plain : PlainName name)
    (other : isClassFile name = false) (value : JsonValue) (p : Progress Disk) :
    p.state.Grows (p.write diskWriter dir name value).1.state := by
  simp only [write]
  split
  · rename_i disk written
    exact Disk.write_grows nonempty plain other (diskWriter_eq_ok written)
  · rename_i failure failed
    rw [state_of_diskWriter_eq_error failed]
    exact .refl p.state

theorem claim_state {σ : Type} (endpoint : Endpoint) (p : Progress σ) :
    (p.claim endpoint).state = p.state := by
  simp only [claim]
  split <;> rfl

theorem countFile_state {σ : Type} (name : String) (p : Progress σ) :
    (p.countFile name).state = p.state := by
  unfold countFile
  split <;> rfl

theorem writeEndpoint_grows {output : Output} (nonempty : output.dir ≠ "") (p : Progress Disk)
    (endpoint : Endpoint) :
    p.state.Grows (p.writeEndpoint diskWriter output endpoint).state := by
  have calls :=
    write_grows nonempty (plainName_endpointFile endpoint) (isClassFile_endpointFile endpoint)
    (graphValue (output.graph.subgraph endpoint.entry)) (p.claim endpoint)
  simp only [writeEndpoint]
  cases step : (p.claim endpoint).write diskWriter output.dir (endpointFile endpoint)
      (graphValue (output.graph.subgraph endpoint.entry)) with
  | mk q success =>
    rw [step, claim_state] at calls
    have counted :
        p.state.Grows (if success then q.countFile (endpointFile endpoint) else q).state := by
      split
      · rw [countFile_state]
        exact calls
      · exact calls
    generalize (if success then q.countFile (endpointFile endpoint) else q) = r at counted ⊢
    cases output.bodies with
    | none => exact counted
    | some bodies =>
      have texts :=
        write_grows nonempty (plainName_bodiesFile endpoint) (isClassFile_bodiesFile endpoint)
        (bodies.endpointValue output.graph endpoint) r
      exact counted.trans texts

theorem foldl_writeEndpoint_grows {output : Output} (nonempty : output.dir ≠ "")
    (endpoints : List Endpoint) (p : Progress Disk) :
    p.state.Grows (endpoints.foldl (Progress.writeEndpoint diskWriter output) p).state := by
  induction endpoints generalizing p with
  | nil => exact .refl p.state
  | cons endpoint rest ih => exact (writeEndpoint_grows nonempty p endpoint).trans (ih _)

end Progress

theorem Output.writeAll_grows (output : Output) (nonempty : output.dir ≠ "")
    (endpoints : List Endpoint) (controllers : List String) (disk : Disk) :
    disk.Grows (output.writeAll diskWriter endpoints controllers disk).state := by
  have graph : disk.Grows _ :=
    Progress.write_grows nonempty plainName_fullGraphFile (by decide) (graphValue output.graph)
    { state := disk }
  have each :=
    graph.trans
      (Progress.foldl_writeEndpoint_grows nonempty (endpoints.mergeSort fun a b => a.key ≤ b.key) _)
  simp only [writeAll]
  cases output.bodies with
  | none => exact each
  | some bodies =>
    have last := each.trans (Progress.write_grows nonempty plainName_controllersFile (by decide)
      (bodies.controllersValue output.graph
        (endpoints.mergeSort fun a b => a.key ≤ b.key) controllers) _)
    exact last

theorem Output.save_grows (output : Output) (endpoints : List Endpoint) (controllers : List String)
    (disk : Disk) :
    disk.Grows (output.save endpoints controllers disk).1 := by
  have made := disk.makeDirs_grows output.dir
  unfold Output.save
  split
  · rename_i start error failed
    rw [failed] at made
    exact made
  · rename_i start done
    rw [done] at made
    have nonempty : output.dir ≠ "" := by
      intro empty
      rw [empty] at done
      cases done
    exact made.trans (output.writeAll_grows nonempty endpoints controllers start)

end Artifact

end CallAtlas
