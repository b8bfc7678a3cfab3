import CallAtlas.Proofs.FileWrites
import CallAtlas.Proofs.WriteRuns

/-!
The files of an analysis: which are written and how often, which of them are reported as
overwritten, and what is in them in the end.
-/

namespace CallAtlas.Artifact

open Files

def Output.files (output : Output) (endpoints : List Endpoint) (controllers : List String) :
    List (String × JsonValue) :=
  (output.jobs endpoints controllers).map Job.entry

/-- Every file that is written more than once is reported, and no other. -/
def Reported (report : Report) (files : List (String × JsonValue)) : Prop :=
  ∀ name, 2 ≤ (files.map Prod.fst).count name ↔ name ∈ report.overwritten

theorem safeName_append (first second : String) :
    safeName (first ++ second) = safeName first ++ safeName second := by
  apply String.toList_inj.mp
  simp [safeName]

theorem slash_notMem_safeName (name : String) : '/' ∉ (safeName name).toList := by
  rw [safeName, String.toList_ofList, List.mem_map]
  rintro ⟨c, _, made⟩
  split at made
  · rename_i safe
    subst made
    exact absurd safe (by decide)
  · exact absurd made (by decide)

theorem endpointFile_eq (endpoint : Endpoint) :
    endpointFile endpoint = safeName (endpointBase endpoint) ++ ".json" := by
  rw [endpointFile, safeName_append]
  rfl

theorem bodiesFile_eq (endpoint : Endpoint) :
    bodiesFile endpoint = safeName (endpointBase endpoint) ++ "_method_bodies.json" := by
  rw [bodiesFile, safeName_append]
  rfl

theorem plainName_append {stem ending : String} (noSlash : '/' ∉ (stem ++ ending).toList)
    (long : 2 < ending.length) :
    PlainName (stem ++ ending) := by
  have differs {name : String} (short : name.length ≤ 2) : stem ++ ending ≠ name := by
    intro same
    have lengths := congrArg String.length same
    rw [String.length_append] at lengths
    omega
  exact ⟨differs (by decide), differs (by decide), differs (by decide), noSlash⟩

theorem plainName_endpointFile (endpoint : Endpoint) : PlainName (endpointFile endpoint) := by
  have noSlash : '/' ∉ (endpointFile endpoint).toList := slash_notMem_safeName _
  rw [endpointFile_eq] at noSlash ⊢
  exact plainName_append noSlash (by decide)

theorem plainName_bodiesFile (endpoint : Endpoint) : PlainName (bodiesFile endpoint) := by
  have noSlash : '/' ∉ (bodiesFile endpoint).toList := slash_notMem_safeName _
  rw [bodiesFile_eq] at noSlash ⊢
  exact plainName_append noSlash (by decide)

theorem plainName_fullGraphFile : PlainName fullGraphFile :=
  ⟨by decide, by decide, by decide, by decide⟩

theorem plainName_controllersFile : PlainName controllersFile :=
  ⟨by decide, by decide, by decide, by decide⟩

theorem plainName_files (output : Output) (endpoints : List Endpoint) (controllers : List String) :
    ∀ file ∈ output.files endpoints controllers, PlainName file.1 := by
  rw [Output.files, List.forall_mem_map]
  intro job member
  rw [Output.jobs, List.mem_cons, List.mem_append, List.mem_flatMap] at member
  rcases member with rfl | ⟨endpoint, _, own⟩ | last
  · exact plainName_fullGraphFile
  · rw [Output.jobsOf, List.mem_cons] at own
    rcases own with rfl | own
    · exact plainName_endpointFile endpoint
    · split at own
      · cases own
      · cases List.mem_singleton.mp own
        exact plainName_bodiesFile endpoint
  · split at last
    · cases last
    · cases List.mem_singleton.mp last
      exact plainName_controllersFile

def bodiesBeside (name : String) : String :=
  String.ofList (name.toList.take (name.length - 5)) ++ "_method_bodies.json"

theorem bodiesBeside_endpointFile (endpoint : Endpoint) : bodiesBeside (endpointFile endpoint) =
    bodiesFile endpoint := by
  have ending : ".json".length = 5 := by decide
  rw [bodiesBeside, endpointFile_eq, bodiesFile_eq, String.length_append, ending,
    Nat.add_sub_cancel, String.toList_append, ← String.length_toList, List.take_left,
    String.ofList_toList]

theorem length_lt_bodiesBeside (name : String) : name.length < (bodiesBeside name).length := by
  have ending : "_method_bodies.json".length = 19 := by decide
  rw [bodiesBeside, String.length_append, ending, String.length_ofList, List.length_take,
    String.length_toList]
  omega

namespace Progress

variable {σ : Type} {writer : Writer σ} {dir : String}

/-- From `p` to `q` some files were written: if none failed, then each of them, in this order. -/
def Wrote (writer : Writer σ) (dir : String) (files : List (String × JsonValue))
    (p q : Progress σ) : Prop :=
  q.report.failed = [] → p.report.failed = [] ∧
    files.foldlM (fun state file => writer state (joinPath dir file.1) file.2.toText) p.state =
    .ok q.state ∧ q.report.written = p.report.written ++ files.map fun file => joinPath dir file.1

theorem foldlM_of_unfailed {jobs : List Job} {state : σ}
    (unfailed : pathsOf dir false (attempts writer dir jobs state).1 = []) :
    (jobs.map Job.entry).foldlM
      (fun state file => writer state (joinPath dir file.1) file.2.toText) state =
        .ok (attempts writer dir jobs state).2 ∧
      pathsOf dir true (attempts writer dir jobs state).1 = (jobs.map Job.entry).map fun file =>
        joinPath dir file.1 := by
  induction jobs generalizing state with
  | nil => exact ⟨rfl, rfl⟩
  | cons job rest ih =>
    cases outcome : writer state (joinPath dir job.file) job.value.toText with
    | error failure => simp [attempts, attempt, outcome, pathsOf] at unfailed
    | ok next =>
      have first : attempt writer dir job state = (true, next) := by rw [attempt, outcome]
      have unfailedLater : pathsOf dir false (attempts writer dir rest next).1 = [] := by
        simpa [attempts, first, pathsOf] using unfailed
      obtain ⟨run, paths⟩ := ih unfailedLater
      have here : writer state (joinPath dir job.entry.1) job.entry.2.toText = .ok next := outcome
      constructor
      · rw [List.map_cons, foldlM_cons_of_ok _ here, run, attempts, first]
      · rw [List.map_cons, List.map_cons, ← paths, attempts, first]
        rfl

theorem Ran.wrote {jobs : List Job} {p q : Progress σ} (ran : Ran writer dir jobs p q) :
    Wrote writer dir (jobs.map Job.entry) p q := by
  intro complete
  rw [ran.failed, List.append_eq_nil_iff] at complete
  obtain ⟨run, paths⟩ := foldlM_of_unfailed complete.2
  refine ⟨complete.1, ?_, ?_⟩
  · rw [run, ran.state]
  · rw [ran.written, paths]

end Progress

theorem Output.writeAll_wrote {σ : Type} (writer : Writer σ) (output : Output)
    (endpoints : List Endpoint) (controllers : List String) (state : σ) :
    Progress.Wrote writer output.dir (output.files endpoints controllers) { state }
      (output.writeAll writer endpoints controllers state) :=
  (output.writeAll_ran writer endpoints controllers state).wrote

theorem Output.map_fst_files (output : Output) (endpoints : List Endpoint)
    (controllers : List String) :
    (output.files endpoints controllers).map Prod.fst =
    (output.jobs endpoints controllers).map Job.file := by
  rw [files, List.map_map]
  rfl

theorem names_jobsOf_of_none {output : Output} (none : output.bodies = none)
    (endpoints : List Endpoint) :
    (endpoints.flatMap output.jobsOf).map Job.file = endpoints.map endpointFile := by
  induction endpoints with
  | nil => rfl
  | cons endpoint rest ih =>
    rw [List.flatMap_cons, List.map_append, ih, Output.jobsOf, none]
    rfl

theorem count_names_of_none {output : Output} (none : output.bodies = none)
    (endpoints : List Endpoint) (controllers : List String) (name : String) :
    ((output.files endpoints controllers).map Prod.fst).count name =
      (endpoints.map endpointFile).count name + if fullGraphFile = name then 1 else 0 := by
  have sorted : (endpoints.mergeSort fun a b => a.key ≤ b.key).Perm endpoints :=
    List.mergeSort_perm _ _
  simp only [output.map_fst_files, Output.jobs, none, List.append_nil, List.map_cons,
    List.count_cons, names_jobsOf_of_none none, (sorted.map endpointFile).count_eq, beq_iff_eq]

theorem count_jobsOf_of_some {output : Output} {bodies : Bodies}
    (some : output.bodies = some bodies) (endpoints : List Endpoint) (name : String) :
    ((endpoints.flatMap output.jobsOf).map Job.file).count name =
      (endpoints.map endpointFile).count name + (endpoints.map bodiesFile).count name := by
  induction endpoints with
  | nil => rfl
  | cons endpoint rest ih =>
    simp only [List.flatMap_cons, List.map_append, List.count_append, ih, Output.jobsOf,
      some, List.map_cons, List.map_nil, List.count_cons, List.count_nil]
    omega

theorem count_names_of_some {output : Output} {bodies : Bodies} (some : output.bodies = some bodies)
    (endpoints : List Endpoint) (controllers : List String) (name : String) :
    ((output.files endpoints controllers).map Prod.fst).count name =
      (endpoints.map endpointFile).count name + (endpoints.map bodiesFile).count name +
        (if fullGraphFile = name then 1 else 0) + if controllersFile = name then 1 else 0 := by
  have sorted : (endpoints.mergeSort fun a b => a.key ≤ b.key).Perm endpoints :=
    List.mergeSort_perm _ _
  simp only [output.map_fst_files, Output.jobs, some, List.map_cons, List.map_append, List.map_nil,
    List.count_cons, List.count_append, List.count_nil, count_jobsOf_of_some some,
    (sorted.map endpointFile).count_eq, (sorted.map bodiesFile).count_eq,
    beq_iff_eq]
  omega

theorem exists_length_bound (names : List String) :
    ∃ bound, ∀ name ∈ names, name.length ≤ bound := by
  induction names with
  | nil => exact ⟨0, by simp⟩
  | cons first rest ih =>
    obtain ⟨bound, bounded⟩ := ih
    refine ⟨max first.length bound, ?_⟩
    rw [List.forall_mem_cons]
    exact ⟨Nat.le_max_left _ _,
      fun name member => Nat.le_trans (bounded name member) (Nat.le_max_right _ _)⟩

theorem count_bodiesBeside (endpoints : List Endpoint) (name : String) :
    (endpoints.map endpointFile).count name ≤
    (endpoints.map bodiesFile).count (bodiesBeside name) := by
  have same : endpoints.map bodiesFile = (endpoints.map endpointFile).map bodiesBeside := by
    rw [List.map_map]
    apply List.map_congr_left
    intro endpoint _
    exact (bodiesBeside_endpointFile endpoint).symm
  rw [same]
  exact List.count_le_count_map

section Reports

variable {output : Output} {endpoints : List Endpoint} {controllers : List String} {report : Report}
  (counts : ∀ name, report.overwritten.count name = (endpoints.map endpointFile).count name - 1)

include counts

theorem mem_overwritten (name : String) : name ∈ report.overwritten ↔
    2 ≤ (endpoints.map endpointFile).count name := by
  rw [← List.count_pos_iff, counts]
  omega

theorem reported_of_none (none : output.bodies = none) :
    Reported report (output.files endpoints controllers) ↔
    (endpoints.map endpointFile).count fullGraphFile ≠ 1 := by
  simp only [Reported, mem_overwritten counts, count_names_of_none none]
  constructor
  · intro reported once
    have graph := reported fullGraphFile
    rw [if_pos rfl, once] at graph
    omega
  · intro unshared name
    by_cases same : fullGraphFile = name
    · subst same
      rw [if_pos rfl]
      omega
    · rw [if_neg same]
      omega

theorem reported_of_some {bodies : Bodies} (some : output.bodies = some bodies) :
    Reported report (output.files endpoints controllers) ↔
    ((output.files endpoints controllers).map Prod.fst).Nodup := by
  rw [List.nodup_iff_count]
  simp only [Reported, mem_overwritten counts]
  constructor
  · intro reported
    by_contra repeated
    obtain ⟨first, twice⟩ := not_forall.mp repeated
    -- A reported name leads to a longer one, that of the bodies beside it, which is then reported
    -- as well.
    have longer : ∀ length, ∃ name, length ≤ name.length ∧
        2 ≤ (endpoints.map endpointFile).count name := by
      intro length
      induction length with
      | zero => exact ⟨first, Nat.zero_le _, (reported first).mp (by omega)⟩
      | succ length ih =>
        obtain ⟨name, long, shared⟩ := ih
        refine ⟨bodiesBeside name, Nat.lt_of_le_of_lt long (length_lt_bodiesBeside name),
          (reported _).mp ?_⟩
        have beside := count_bodiesBeside endpoints name
        rw [count_names_of_some some]
        omega
    obtain ⟨bound, bounded⟩ := exists_length_bound (endpoints.map endpointFile)
    obtain ⟨name, long, shared⟩ := longer (bound + 1)
    have short := bounded name (List.count_pos_iff.mp (by omega))
    omega
  · intro distinct name
    have once := distinct name
    have parts := count_names_of_some some endpoints controllers name
    omega

end Reports

theorem diskWriter_eq_ok {disk disk' : Disk} {path content : String}
    (written : diskWriter disk path content = .ok disk') :
    disk.write path (Text.encodeUtf8 content.toList) = .ok disk' := by
  unfold diskWriter at written
  cases outcome : disk.write path (Text.encodeUtf8 content.toList) with
  | error e =>
    rw [outcome] at written
    cases written
  | ok next =>
    rw [outcome] at written
    cases written
    rfl

theorem state_of_diskWriter_eq_error {disk : Disk} {path content : String}
    {failure : WriteFailure Disk} (failed : diskWriter disk path content = .error failure) :
    failure.state = disk := by
  unfold diskWriter at failed
  split at failed
  · cases failed
  · cases failed
    rfl

section Contents

variable {dir : String} {files : List (String × JsonValue)} {disk disk' : Disk}

theorem read_unwritten (nonempty : dir ≠ "") (plain : ∀ file ∈ files, PlainName file.1)
    (run : files.foldlM (fun state file => diskWriter state (joinPath dir file.1) file.2.toText)
      disk = .ok disk')
    {other : String} (plainOther : PlainName other) (unwritten : other ∉ files.map Prod.fst) :
    disk'.read (joinPath dir other) = disk.read (joinPath dir other) := by
  induction files generalizing disk with
  | nil =>
    cases run
    rfl
  | cons file rest ih =>
    rw [List.forall_mem_cons] at plain
    rw [List.map_cons, List.mem_cons, not_or] at unwritten
    rw [List.foldlM_cons] at run
    obtain ⟨next, step, later⟩ := bind_eq_ok.mp run
    rw [ih plain.2 later unwritten.2,
      Disk.read_write nonempty plain.1 (diskWriter_eq_ok step) plainOther,
      if_neg (Ne.symm unwritten.1)]

theorem read_last (nonempty : dir ≠ "") (plain : ∀ file ∈ files, PlainName file.1)
    (run : files.foldlM (fun state file => diskWriter state (joinPath dir file.1) file.2.toText)
      disk = .ok disk')
    {before after : List (String × JsonValue)} {name : String} {value : JsonValue}
    (split : files = before ++ (name, value) :: after) (last : name ∉ after.map Prod.fst) :
    disk'.read (joinPath dir name) = .ok (Text.encodeUtf8 value.toText.toList) := by
  subst split
  rw [List.forall_mem_append, List.forall_mem_cons] at plain
  obtain ⟨_, plainName, plainAfter⟩ := plain
  rw [List.foldlM_append] at run
  obtain ⟨middle, _, rest⟩ := bind_eq_ok.mp run
  rw [List.foldlM_cons] at rest
  obtain ⟨next, step, later⟩ := bind_eq_ok.mp rest
  rw [read_unwritten nonempty plainAfter later plainName last,
    Disk.read_write nonempty plainName (diskWriter_eq_ok step) plainName, if_pos rfl]

end Contents

theorem save_reports (output : Output) (endpoints : List Endpoint) (controllers : List String)
    {disk disk' : Disk} {log : Log} {report : Report}
    (saved : output.save endpoints controllers disk = (disk', log, .ok report))
    (complete : report.failed = []) :
    report.written =
    (output.files endpoints controllers).map (fun file => joinPath output.dir file.1) ∧
    (∀ name, report.overwritten.count name = (endpoints.map endpointFile).count name - 1) ∧
      (∀ before name value after, output.files endpoints controllers =
      before ++ (name, value) :: after → name ∉ after.map Prod.fst →
        disk'.read (joinPath output.dir name) = .ok (Text.encodeUtf8 value.toText.toList)) ∧
    (output.bodies.isSome = true → (Reported report (output.files endpoints controllers) ↔
      ((output.files endpoints controllers).map Prod.fst).Nodup)) ∧
    (output.bodies = none → (Reported report (output.files endpoints controllers) ↔
      (endpoints.map endpointFile).count fullGraphFile ≠ 1)) := by
  unfold Output.save at saved
  cases made : disk.makeDirs output.dir with
  | mk start error =>
    rw [made] at saved
    cases error with
    | some error => cases saved
    | none =>
      cases saved
      have nonempty : output.dir ≠ "" := by
        intro empty
        rw [empty] at made
        cases made
      obtain ⟨_, run, written⟩ :=
        output.writeAll_wrote diskWriter endpoints controllers start complete
      have counts := output.count_overwritten diskWriter endpoints controllers start
      refine ⟨written, counts, ?_, ?_, reported_of_none counts⟩
      · intro before name value after split last
        exact read_last nonempty (plainName_files output endpoints controllers) run split last
      · intro present
        obtain ⟨bodies, some⟩ := Option.isSome_iff_exists.mp present
        exact reported_of_some counts some

def pairOutput : Output :=
  { graph := ⟨[("c.A.f", ["c.X.x"]), ("c.B.g", ["c.Y.y"])]⟩, dir := "out"
    bodies := some { store := { parser := .bare } } }

def apartEndpoints : List Endpoint := [⟨"GET", "/a", "c.A.f"⟩, ⟨"POST", "/a", "c.B.g"⟩]

def apartReport : Report :=
  { endpointsProcessed := 2, endpointsWritten := 2
    written := ["out/full_call_graph.json", "out/GET__a.json", "out/GET__a_method_bodies.json",
      "out/POST__a.json", "out/POST__a_method_bodies.json", "out/controller_method_bodies.json"] }

theorem save_reports_apart : ∃ disk log report,
    pairOutput.save apartEndpoints [] {} = (disk, log, .ok report) ∧ report.failed = [] ∧
      Reported report (pairOutput.files apartEndpoints []) ∧
      disk.read "out/POST__a.json" =
        .ok (Text.encodeUtf8 (graphValue (pairOutput.graph.subgraph "c.B.g")).toText.toList) := by
  have sorted : (apartEndpoints.mergeSort fun a b => a.key ≤ b.key) = apartEndpoints :=
    List.mergeSort_of_pairwise (by decide)
  have names : (pairOutput.files apartEndpoints []).map Prod.fst =
      ["full_call_graph.json", "GET__a.json", "GET__a_method_bodies.json", "POST__a.json",
        "POST__a_method_bodies.json", "controller_method_bodies.json"] := by
    simp only [Output.files, Output.jobs, sorted]
    decide
  have outcome : (pairOutput.save apartEndpoints [] {}).2.2 = .ok apartReport := by
    simp only [Output.save, Output.writeAll, sorted]
    decide +kernel
  have saved : pairOutput.save apartEndpoints [] {} = (_, _, .ok apartReport) :=
    Prod.ext rfl (Prod.ext rfl outcome)
  obtain ⟨_, _, contents, reported, _⟩ := save_reports pairOutput apartEndpoints [] saved rfl
  refine ⟨_, _, apartReport, saved, rfl, (reported rfl).mpr ?_, ?_⟩
  · rw [names]
    decide
  · have split : pairOutput.files apartEndpoints [] = (pairOutput.files apartEndpoints []).take 3 ++
        ("POST__a.json", graphValue (pairOutput.graph.subgraph "c.B.g")) ::
          (pairOutput.files apartEndpoints []).drop 4 := by
      simp only [Output.files, Output.jobs, sorted]
      rfl
    have path : joinPath pairOutput.dir "POST__a.json" = "out/POST__a.json" := by decide
    rw [← path]
    apply contents _ _ _ _ split
    rw [List.map_drop, names]
    decide

def sharedEndpoints : List Endpoint := [⟨"GET", "/a/b", "c.A.f"⟩, ⟨"GET", "/a_b", "c.B.g"⟩]

def sharedReport : Report :=
  { endpointsProcessed := 2, endpointsWritten := 1
    written := ["out/full_call_graph.json", "out/GET__a_b.json", "out/GET__a_b_method_bodies.json",
      "out/GET__a_b.json", "out/GET__a_b_method_bodies.json", "out/controller_method_bodies.json"]
    overwritten := ["GET__a_b.json"] }

theorem save_hides_shared : (pairOutput.save sharedEndpoints [] {}).2.2 = .ok sharedReport ∧
    ¬ Reported sharedReport (pairOutput.files sharedEndpoints []) := by
  have sorted : (sharedEndpoints.mergeSort fun a b => a.key ≤ b.key) = sharedEndpoints :=
    List.mergeSort_of_pairwise (by decide)
  constructor
  · simp only [Output.save, Output.writeAll, sorted]
    decide +kernel
  · intro reported
    have bodies := reported "GET__a_b_method_bodies.json"
    simp only [Output.files, Output.jobs, sorted] at bodies
    exact absurd (bodies.mp (by decide +kernel)) (by decide)

end CallAtlas.Artifact
