import CallAtlas.Artifact.Report
import CallAtlas.Proofs.SetTables
import Mathlib.Data.Finset.Card

/-! Runs of writes, any of which may fail: what is attempted, and what the report has of it. -/

namespace CallAtlas.Artifact

open Files

structure Job where
  file : String
  value : JsonValue
  calls : Bool := false

def Job.entry (job : Job) : String × JsonValue := (job.file, job.value)

def Output.jobsOf (output : Output) (endpoint : Endpoint) : List Job :=
  { file := endpointFile endpoint, value := graphValue (output.graph.subgraph endpoint.entry),
    calls := true } :: match output.bodies with
    | none => []
    | some bodies =>
      [{ file := bodiesFile endpoint, value := bodies.endpointValue output.graph endpoint }]

def Output.jobs (output : Output) (endpoints : List Endpoint)
    (controllers : List String) : List Job :=
  let endpoints := endpoints.mergeSort fun a b => a.key ≤ b.key
  { file := fullGraphFile, value := graphValue output.graph } :: (endpoints.flatMap output.jobsOf ++
    match output.bodies with
    | none => []
    | some bodies =>
      [{ file := controllersFile,
         value := bodies.controllersValue output.graph endpoints controllers }])

section Attempts

variable {σ : Type} (writer : Writer σ) (dir : String)

def attempt (job : Job) (state : σ) : Bool × σ :=
  match writer state (joinPath dir job.file) job.value.toText with
  | .ok next => (true, next)
  | .error failure => (false, failure.state)

/-- Each of some writes with its outcome, whatever became of those before it, and the state after
them. -/
def attempts : List Job → σ → List (Job × Bool) × σ
  | [], state => ([], state)
  | job :: rest, state =>
    let first := attempt writer dir job state
    let later := attempts rest first.2
    ((job, first.1) :: later.1, later.2)

theorem attempts_append (first second : List Job) (state : σ) :
    attempts writer dir (first ++ second) state =
      ((attempts writer dir first state).1 ++
        (attempts writer dir second (attempts writer dir first state).2).1,
        (attempts writer dir second (attempts writer dir first state).2).2) := by
  induction first generalizing state with
  | nil => rfl
  | cons job rest ih => simp only [List.cons_append, attempts, ih]

theorem jobs_attempts (jobs : List Job) (state : σ) :
    (attempts writer dir jobs state).1.map Prod.fst = jobs := by
  induction jobs generalizing state with
  | nil => rfl
  | cons job rest ih => simp only [attempts, List.map_cons, ih]

end Attempts

def scripted : Writer (List Bool) := fun script _ _ =>
  match script with
  | true :: rest => .ok rest
  | false :: rest => .error ⟨"no space left", rest⟩
  | [] => .error ⟨"no space left", []⟩

theorem outcomes_scripted (dir : String) {jobs : List Job} {pattern : List Bool}
    (complete : pattern.length = jobs.length) :
    (attempts scripted dir jobs pattern).1.map Prod.snd = pattern := by
  induction jobs generalizing pattern with
  | nil => exact (List.length_eq_zero_iff.mp complete).symm
  | cons job rest ih =>
    cases pattern with
    | nil => cases complete
    | cons success pattern =>
      have first : attempt scripted dir job (success :: pattern) =
          (success, pattern) := by cases success <;> rfl
      rw [attempts, first, List.map_cons, ih (Nat.succ.inj complete)]

def pathsOf (dir : String) (success : Bool) (run : List (Job × Bool)) : List String :=
  (run.filter fun attempt => attempt.2 == success).map fun attempt => joinPath dir attempt.1.file

def callFiles (run : List (Job × Bool)) : List String :=
  (run.filter fun attempt => attempt.1.calls && attempt.2).map fun attempt => attempt.1.file

theorem pathsOf_append (dir : String) (success : Bool) (first second : List (Job × Bool)) :
    pathsOf dir success (first ++ second) = pathsOf dir success first ++
    pathsOf dir success second := by
  rw [pathsOf, List.filter_append, List.map_append]
  rfl

theorem callFiles_append (first second : List (Job × Bool)) :
    callFiles (first ++ second) = callFiles first ++ callFiles second := by
  rw [callFiles, List.filter_append, List.map_append]
  rfl

theorem length_pathsOf (dir : String) (run : List (Job × Bool)) :
    (pathsOf dir true run).length + (pathsOf dir false run).length = run.length := by
  induction run with
  | nil => rfl
  | cons attempt rest ih =>
    obtain ⟨job, success⟩ := attempt
    cases success <;> simp [pathsOf] at ih ⊢ <;> omega

namespace Progress

variable {σ : Type} {writer : Writer σ} {dir : String}

/-- From `p` to `q` some files were attempted, and the report tells of each. -/
structure Ran (writer : Writer σ) (dir : String) (jobs : List Job) (p q : Progress σ) : Prop where
  state : q.state = (attempts writer dir jobs p.state).2
  written : q.report.written =
    p.report.written ++ pathsOf dir true (attempts writer dir jobs p.state).1
  failed : q.report.failed =
    p.report.failed ++ pathsOf dir false (attempts writer dir jobs p.state).1
  processed : q.report.endpointsProcessed = p.report.endpointsProcessed + jobs.countP Job.calls
  files : q.endpointFiles =
    (callFiles (attempts writer dir jobs p.state).1).foldl
      (fun files file => insertNew file files) p.endpointFiles
  counted : q.report.endpointsWritten + p.endpointFiles.length = p.report.endpointsWritten +
    q.endpointFiles.length

theorem Ran.nothing (p : Progress σ) : Ran writer dir [] p p :=
  ⟨rfl, (List.append_nil _).symm, (List.append_nil _).symm, rfl, rfl, rfl⟩

theorem Ran.relog {jobs : List Job} {p q : Progress σ} (ran : Ran writer dir jobs p q) (log : Log) :
    Ran writer dir jobs p { q with log } :=
  ⟨ran.state, ran.written, ran.failed, ran.processed, ran.files, ran.counted⟩

theorem Ran.trans {first second : List Job} {p q r : Progress σ} (left : Ran writer dir first p q)
    (right : Ran writer dir second q r) : Ran writer dir (first ++ second) p r := by
  have run := attempts_append writer dir first second p.state
  rw [← left.state] at run
  constructor
  · rw [run, right.state]
  · rw [run, right.written, left.written, pathsOf_append, List.append_assoc]
  · rw [run, right.failed, left.failed, pathsOf_append, List.append_assoc]
  · rw [right.processed, left.processed, List.countP_append, Nat.add_assoc]
  · rw [run, right.files, left.files, callFiles_append, List.foldl_append]
  · have first := left.counted
    have second := right.counted
    omega

theorem write_ran (name : String) (value : JsonValue) (p : Progress σ) :
    Ran writer dir [{ file := name, value }] p (p.write writer dir name value).1 := by
  cases outcome : writer p.state (joinPath dir name) value.toText with
  | ok state => constructor <;> simp [write, attempts, attempt, pathsOf, callFiles, outcome]
  | error failure => constructor <;> simp [write, attempts, attempt, pathsOf, callFiles, outcome]

theorem claim_eq (endpoint : Endpoint) (p : Progress σ) : ∃ claimed overwritten log,
    p.claim endpoint = { p with
      claimed, log
      report := { p.report with
                  endpointsProcessed := p.report.endpointsProcessed + 1, overwritten } } := by
  simp only [claim]
  split
  · exact ⟨_, _, _, rfl⟩
  · exact ⟨_, _, _, rfl⟩

theorem writeCalls_ran (endpoint : Endpoint) (value : JsonValue) (p : Progress σ) {q : Progress σ}
    {success : Bool}
    (step : (p.claim endpoint).write writer dir (endpointFile endpoint) value = (q, success)) :
    Ran writer dir [{ file := endpointFile endpoint, value, calls := true }] p
      (if success then q.countFile (endpointFile endpoint) else q) := by
  obtain ⟨claimed, overwritten, log, claim⟩ := claim_eq endpoint p
  rw [claim] at step
  cases outcome : writer p.state (joinPath dir (endpointFile endpoint)) value.toText with
  | error failure =>
    simp only [write, outcome] at step
    cases step
    constructor <;> simp [attempts, attempt, pathsOf, callFiles, outcome]
  | ok state =>
    simp only [write, outcome] at step
    cases step
    rw [if_pos rfl, countFile]
    split
    case isTrue known =>
      constructor <;> simp [attempts, attempt, pathsOf, callFiles, outcome, insertNew, known]
    case isFalse fresh =>
      constructor <;> simp [attempts, attempt, pathsOf, callFiles, outcome, insertNew, fresh]
      omega

theorem writeEndpoint_ran (output : Output) (p : Progress σ) (endpoint : Endpoint) :
    Ran writer output.dir (output.jobsOf endpoint) p (p.writeEndpoint writer output endpoint) := by
  simp only [writeEndpoint, Output.jobsOf]
  cases step : (p.claim endpoint).write writer output.dir (endpointFile endpoint)
      (graphValue (output.graph.subgraph endpoint.entry)) with
  | mk q success =>
    have calls := writeCalls_ran endpoint _ p step
    cases output.bodies with
    | none => exact calls
    | some bodies =>
      exact calls.trans
        (write_ran (bodiesFile endpoint) (bodies.endpointValue output.graph endpoint) _)

theorem foldl_writeEndpoint_ran (output : Output) (endpoints : List Endpoint) (p : Progress σ) :
    Ran writer output.dir (endpoints.flatMap output.jobsOf) p
      (endpoints.foldl (Progress.writeEndpoint writer output) p) := by
  induction endpoints generalizing p with
  | nil => exact .nothing p
  | cons endpoint rest ih => exact (writeEndpoint_ran output p endpoint).trans (ih _)

def claims (p : Progress σ) : Table String Text.CodeText × List String :=
  (p.claimed, p.report.overwritten)

theorem write_claims (name : String) (value : JsonValue) (p : Progress σ) :
    (p.write writer dir name value).1.claims = p.claims := by
  simp only [write]
  split <;> rfl

theorem countFile_claims (name : String) (p : Progress σ) :
    (p.countFile name).claims = p.claims := by
  unfold countFile
  split <;> rfl

theorem writeEndpoint_claims (output : Output) (p : Progress σ) (endpoint : Endpoint) :
    (p.writeEndpoint writer output endpoint).claims = (p.claim endpoint).claims := by
  simp only [writeEndpoint]
  cases step : (p.claim endpoint).write writer output.dir (endpointFile endpoint)
      (graphValue (output.graph.subgraph endpoint.entry)) with
  | mk q success =>
    have calls : q.claims = (p.claim endpoint).claims := by
      rw [← write_claims (endpointFile endpoint) (graphValue (output.graph.subgraph endpoint.entry))
        (p.claim endpoint), step]
    have counted : (if success then q.countFile (endpointFile endpoint) else q).claims =
        (p.claim endpoint).claims := by
      split
      · rw [countFile_claims, calls]
      · exact calls
    cases output.bodies with
    | none => exact counted
    | some bodies => exact (write_claims _ _ _).trans counted

/-- How often a file was claimed: once if it is in the table, and once more for each time in the
report. -/
def timesClaimed (name : String) (p : Progress σ) : Nat :=
  p.claims.2.count name + if (p.claims.1.get? name).isSome then 1 else 0

theorem claim_isSome (endpoint : Endpoint) (p : Progress σ) (name : String) :
    ((p.claim endpoint).claims.1.get? name).isSome = true ↔
      endpointFile endpoint = name ∨ (p.claims.1.get? name).isSome = true := by
  have table :
      (p.claim endpoint).claims.1 = p.claimed.put (endpointFile endpoint) endpoint.key := by
    simp only [claim]
    split <;> rfl
  rw [table, Table.get?_put]
  split
  · rename_i same
    simp [same]
  · rename_i apart
    simp [apart, claims]

theorem claim_report (endpoint : Endpoint) (p : Progress σ) :
    (p.claim endpoint).claims.2 =
      p.claims.2 ++ if (p.claims.1.get? (endpointFile endpoint)).isSome then [endpointFile endpoint]
      else [] := by
  simp only [claim, claims]
  split
  · rename_i absent
    simp [absent]
  · rename_i before present
    simp [present]

theorem claim_timesClaimed (endpoint : Endpoint) (p : Progress σ) (name : String) :
    (p.claim endpoint).timesClaimed name = p.timesClaimed name + if endpointFile endpoint =
    name then 1 else 0 := by
  simp only [timesClaimed, claim_isSome, claim_report, List.count_append]
  by_cases same : endpointFile endpoint = name
  · subst same
    cases (p.claims.1.get? (endpointFile endpoint)).isSome <;> simp
  · have other :
        List.count name
          (if (p.claims.1.get? (endpointFile endpoint)).isSome then [endpointFile endpoint]
            else []) = 0 := by
      split <;> simp [same]
    simp [same, other]

theorem foldl_claims (output : Output) (endpoints : List Endpoint) (p : Progress σ)
    (name : String) :
    (endpoints.foldl (writeEndpoint writer output) p).timesClaimed name =
        p.timesClaimed name + (endpoints.map endpointFile).count name ∧
      (((endpoints.foldl (writeEndpoint writer output) p).claims.1.get? name).isSome = true ↔
        (p.claims.1.get? name).isSome = true ∨ name ∈ endpoints.map endpointFile) := by
  induction endpoints generalizing p with
  | nil => simp
  | cons endpoint rest ih =>
    obtain ⟨times, present⟩ := ih (p.writeEndpoint writer output endpoint)
    have step : (p.writeEndpoint writer output endpoint).timesClaimed name =
        (p.claim endpoint).timesClaimed name := by
      rw [timesClaimed, writeEndpoint_claims, timesClaimed]
    rw [writeEndpoint_claims, claim_isSome] at present
    rw [step, claim_timesClaimed] at times
    rw [List.foldl_cons, List.map_cons, List.count_cons, List.mem_cons]
    constructor
    · rw [times]
      simp only [beq_iff_eq]
      omega
    · rw [present]
      grind

end Progress

theorem Output.writeAll_ran {σ : Type} (writer : Writer σ) (output : Output)
    (endpoints : List Endpoint) (controllers : List String) (state : σ) :
    Progress.Ran writer output.dir (output.jobs endpoints controllers) { state }
      (output.writeAll writer endpoints controllers state) := by
  have start : Progress.Ran writer output.dir _ { state } _ :=
    Progress.write_ran fullGraphFile (graphValue output.graph) { state }
  have each := start.trans
    (Progress.foldl_writeEndpoint_ran output (endpoints.mergeSort fun a b => a.key ≤ b.key) _)
  simp only [writeAll, jobs]
  cases output.bodies with
  | none =>
    rw [List.append_nil]
    exact each.relog _
  | some bodies =>
    have last :=
      each.trans (Progress.write_ran controllersFile (bodies.controllersValue output.graph
      (endpoints.mergeSort fun a b => a.key ≤ b.key) controllers) _)
    exact last.relog _

theorem Output.writeAll_claims {σ : Type} (writer : Writer σ) (output : Output)
    (endpoints : List Endpoint) (controllers : List String) (state : σ) :
    (output.writeAll writer endpoints controllers state).claims =
      ((endpoints.mergeSort fun a b => a.key ≤ b.key).foldl (Progress.writeEndpoint writer output)
        (Progress.write writer output.dir fullGraphFile (graphValue output.graph)
          { state }).1).claims := by
  simp only [writeAll]
  cases output.bodies with
  | none => rfl
  | some bodies => exact Progress.write_claims _ _ _

/-- A name is reported once for each endpoint but the first that claims it. -/
theorem Output.count_overwritten {σ : Type} (writer : Writer σ) (output : Output)
    (endpoints : List Endpoint) (controllers : List String) (state : σ) (name : String) :
    (output.writeAll writer endpoints controllers state).report.overwritten.count name =
      (endpoints.map endpointFile).count name - 1 := by
  have sorted : (endpoints.mergeSort fun a b => a.key ≤ b.key).Perm endpoints :=
    List.mergeSort_perm _ _
  obtain ⟨times, present⟩ :=
    Progress.foldl_claims output (endpoints.mergeSort fun a b => a.key ≤ b.key)
    (Progress.write writer output.dir fullGraphFile (graphValue output.graph) { state }).1 name
  rw [(sorted.map endpointFile).count_eq] at times
  rw [(sorted.map endpointFile).mem_iff, ← List.count_pos_iff] at present
  have start : ({ state } : Progress σ).claims = ([], []) := rfl
  have all := writeAll_claims writer output endpoints controllers state
  rw [Progress.timesClaimed, Progress.timesClaimed, Progress.write_claims, start, ← all] at times
  rw [Progress.write_claims, start, ← all] at present
  simp only [List.count_nil, Table.get?, Option.isSome_none, Bool.false_eq_true, ↓reduceIte,
    Nat.add_zero, Nat.zero_add, false_or] at times present
  change (output.writeAll writer endpoints controllers state).claims.2.count name = _
  rw [← times]
  split
  · omega
  · rename_i absent
    rw [present] at absent
    omega

theorem length_flatMap_jobsOf (output : Output) (endpoints : List Endpoint) :
    (endpoints.flatMap output.jobsOf).length =
    (if output.bodies.isSome then 2 else 1) * endpoints.length := by
  induction endpoints with
  | nil => rfl
  | cons endpoint rest ih =>
    have own : (output.jobsOf endpoint).length = if output.bodies.isSome then 2 else 1 := by
      rw [Output.jobsOf]
      cases output.bodies <;> rfl
    rw [List.flatMap_cons, List.length_append, ih, own, List.length_cons,
      Nat.mul_succ, Nat.add_comm]

theorem length_jobs (output : Output) (endpoints : List Endpoint) (controllers : List String) :
    (output.jobs endpoints controllers).length =
      if output.bodies.isSome then 2 + 2 * endpoints.length else 1 + endpoints.length := by
  simp only [Output.jobs, List.length_cons, List.length_append, length_flatMap_jobsOf,
    List.length_mergeSort]
  cases output.bodies with
  | none =>
    simp
    omega
  | some bodies =>
    simp
    omega

theorem countP_calls_jobs (output : Output) (endpoints : List Endpoint)
    (controllers : List String) :
    (output.jobs endpoints controllers).countP Job.calls = endpoints.length := by
  have own (endpoint : Endpoint) : (output.jobsOf endpoint).countP Job.calls = 1 := by
    rw [Output.jobsOf]
    cases output.bodies <;> rfl
  have each (endpoints : List Endpoint) : (endpoints.flatMap output.jobsOf).countP Job.calls =
      endpoints.length := by
    induction endpoints with
    | nil => rfl
    | cons endpoint rest ih =>
      rw [List.flatMap_cons, List.countP_append, own, ih, List.length_cons, Nat.add_comm]
  simp only [Output.jobs, List.countP_cons, List.countP_append, each, List.length_mergeSort]
  cases output.bodies <;> rfl

theorem card_toFinset_eq_length (names : List String) :
    names.toFinset.card = (names.foldl (fun files file => insertNew file files) []).length := by
  have same :
      names.toFinset = (names.foldl (fun files file => insertNew file files) []).toFinset := by
    ext name
    simp [mem_foldl_insertNew]
  rw [same, List.toFinset_card_of_nodup (nodup_foldl_insertNew names List.nodup_nil)]

theorem Output.length_overwritten {σ : Type} (writer : Writer σ) (output : Output)
    (endpoints : List Endpoint) (controllers : List String) (state : σ) :
    (output.writeAll writer endpoints controllers state).report.overwritten.length +
      (endpoints.map endpointFile).toFinset.card = endpoints.length := by
  have names : ((output.writeAll writer endpoints controllers state).report.overwritten ++
      (endpoints.map endpointFile).dedup).Perm (endpoints.map endpointFile) := by
    rw [List.perm_iff_count]
    intro name
    rw [List.count_append, count_overwritten, List.count_dedup]
    split
    case isTrue present => exact Nat.sub_add_cancel (List.count_pos_iff.mpr present)
    case isFalse absent => rw [List.count_eq_zero.mpr absent]
  calc _ = ((output.writeAll writer endpoints controllers state).report.overwritten ++
        (endpoints.map endpointFile).dedup).length := by rw [List.length_append, List.card_toFinset]
    _ = endpoints.length := by rw [names.length_eq, List.length_map]

/-- Whatever fails, every file is attempted and is in one of the lists of the report, in the order
of the attempts; the report counts the endpoints, the files that several of them share, and those
files of calls that were written at all. And there is a run for every pattern of outcomes. -/
theorem writeAll_accounts {σ : Type} (writer : Writer σ) (output : Output)
    (endpoints : List Endpoint) (controllers : List String) (state : σ) :
    let jobs := output.jobs endpoints controllers
    let run := (attempts writer output.dir jobs state).1
    let report := (output.writeAll writer endpoints controllers state).report
    run.map Prod.fst = jobs ∧
      jobs.length =
      (if output.bodies.isSome then 2 + 2 * endpoints.length else 1 + endpoints.length) ∧
      report.written = pathsOf output.dir true run ∧ report.failed = pathsOf output.dir false run ∧
      report.written.length + report.failed.length = jobs.length ∧
      report.endpointsProcessed = endpoints.length ∧
      report.overwritten.length = endpoints.length - (endpoints.map endpointFile).toFinset.card ∧
      report.endpointsWritten = (callFiles run).toFinset.card ∧
      ∀ pattern : List Bool, pattern.length = jobs.length →
        (attempts scripted output.dir jobs pattern).1.map Prod.snd = pattern := by
  intro jobs run report
  have ran := output.writeAll_ran writer endpoints controllers state
  have attempted : run.map Prod.fst = jobs := jobs_attempts writer output.dir jobs state
  have written : report.written = pathsOf output.dir true run := ran.written
  have failed : report.failed = pathsOf output.dir false run := ran.failed
  have shared := output.length_overwritten writer endpoints controllers state
  refine ⟨attempted, length_jobs output endpoints controllers, written, failed, ?_, ?_, ?_, ?_, ?_⟩
  · rw [written, failed, length_pathsOf, ← List.length_map, attempted]
  · rw [← countP_calls_jobs output endpoints controllers, ran.processed]
    exact Nat.zero_add _
  · exact Nat.eq_sub_of_add_eq shared
  · calc report.endpointsWritten
        = (output.writeAll writer endpoints controllers state).endpointFiles.length := by
          have counted := ran.counted
          simpa using counted
      _ = (callFiles run).toFinset.card := by rw [card_toFinset_eq_length, ran.files]
  · intro pattern complete
    exact outcomes_scripted output.dir complete

def collidingOutput : Output := { graph := ⟨[("c.A.f", ["c.X.x"])]⟩, dir := "out" }

def collidingEndpoints : List Endpoint := [⟨"GET", "/a/b", "c.A.f"⟩, ⟨"GET", "/a_b", "c.B.g"⟩]

theorem writeAll_accounts_colliding :
    let jobs := collidingOutput.jobs collidingEndpoints []
    let report :=
      (collidingOutput.writeAll scripted collidingEndpoints [] [true, false, true]).report
    (attempts scripted "out" jobs [true, false, true]).1.map Prod.snd = [true, false, true] ∧
      report.written = ["out/full_call_graph.json", "out/GET__a_b.json"] ∧
      report.failed = ["out/GET__a_b.json"] ∧ report.endpointsProcessed = 2 ∧
      report.overwritten.length = 1 ∧ report.endpointsWritten = 1 := by
  intro jobs report
  obtain ⟨_, length, written, failed, _, processed, overwritten, distinct, patterns⟩ :=
    writeAll_accounts scripted collidingOutput collidingEndpoints [] [true, false, true]
  have sorted : (collidingEndpoints.mergeSort fun a b => a.key ≤ b.key) = collidingEndpoints :=
    List.mergeSort_of_pairwise (by decide)
  refine ⟨patterns _ length.symm, written.trans ?_, failed.trans ?_, processed,
    overwritten.trans (by decide), distinct.trans ?_⟩
  all_goals
    simp only [Output.jobs, sorted]
    decide

end CallAtlas.Artifact
