import CallAtlas.Proofs.ArtifactsBeside
import CallAtlas.Proofs.Exclusion

/-!
The stages of an analysis called in any order. Whatever was called before, artifacts are written
from what the stages give in their order.
-/

namespace CallAtlas.Run

open Bytecode Files Project Stage

inductive Call where
  | load
  | extract
  | resolve
  | write (store : Option BodyStore)

namespace Call

def stage : Call → Stage Unit
  | load => discard loadTypes
  | extract => discard extractCalls
  | resolve => discard resolveCalls
  | write store => discard (writeArtifacts store)

def isExtract : Call → Bool
  | extract => true
  | _ => false

def isResolve : Call → Bool
  | resolve => true
  | _ => false

end Call

def Analysis.refusal (a : Analysis) : Call → Option StageError
  | .load => none
  | .extract =>
    if a.loaded.isNone then some .extractBeforeLoad
      else if a.extracted then some .extractAgain else none
  | .resolve =>
    if a.extracted then if a.resolved then some .resolveAgain else none
      else some .resolveBeforeExtract
  | .write _ => if a.resolved then none else some .writeBeforeResolve

/-- All that a call can do to a workspace, with what comes of it. -/
inductive Effect (w : Workspace) : Call → Except RunError Unit → Workspace → Prop
  | refused {call : Call} {e : StageError} (reason : w.analysis.refusal call = some e) :
      Effect w call (.error (.stage e)) w
  | noInput (dir : String) : Effect w .load (.error (.noInput dir)) w
  | loaded (present : w.disk.isDir w.analysis.settings.classesDir = true) (log : Log) :
      Effect w .load (.ok ())
        { w with
          analysis :=
            { w.analysis with
              loaded := some (LoadedTypes.ofDir w.disk w.analysis.settings.classesDir).1 }
          log }
  | extracted {loaded : LoadedTypes} {found : Extraction}
      (present : w.analysis.loaded = some loaded)
      (first : w.analysis.extracted = false)
      (done : Extraction.addTypes w.analysis.settings.excludedPrefixes loaded.types
        { graph := w.analysis.graph, endpoints := w.analysis.endpoints } = (found, none))
          (log : Log) :
      Effect w .extract (.ok ())
        { w with
          analysis :=
            { w.analysis with
              graph := found.graph, endpoints := found.endpoints, extracted := true }
          log }
  | broken {loaded : LoadedTypes} {found : Extraction} {e : DecodeError}
      (present : w.analysis.loaded = some loaded)
      (first : w.analysis.extracted = false)
      (failed : Extraction.addTypes w.analysis.settings.excludedPrefixes loaded.types
        { graph := w.analysis.graph, endpoints := w.analysis.endpoints } = (found, some e))
          (log : Log) :
      Effect w .extract (.error (.load (.decode e)))
        { w with
          analysis :=
            { w.analysis with
              graph := found.graph, endpoints := found.endpoints, extracted := false }
          log }
  | resolved (ready : w.analysis.extracted = true)
      (first : w.analysis.resolved = false) (log : Log) :
      Effect w .resolve (.ok ())
        { w with
          analysis :=
            { w.analysis with
              graph := (w.analysis.graph.resolve
                (implementers ((w.analysis.loaded.map LoadedTypes.types).getD []))).graph
              interfaces := some (implementers ((w.analysis.loaded.map LoadedTypes.types).getD []))
              resolved := true }
          log }
  | written (store : Option BodyStore) (ready : w.analysis.resolved = true) {disk : Disk}
      (grows : w.disk.Grows disk)
      {result : Except RunError Unit} (passed : ∀ e, result ≠ .error (.stage e)) (log : Log) :
      Effect w (.write store) result { w with disk, log }

theorem outcome_discard {α : Type} (stage : Stage α) (w : Workspace) :
    (discard stage).outcome w = ((stage.outcome w).1.map fun _ => (), (stage.outcome w).2) :=
  Fallible.outcome_map (fun _ => ()) stage w

theorem load_effect (w : Workspace) :
    Effect w .load (Call.load.stage.outcome w).1 (Call.load.stage.outcome w).2 := by
  rw [Call.stage, outcome_discard]
  by_cases present : w.disk.isDir w.analysis.settings.classesDir = true
  · rw [loadTypes_outcome w present]
    exact .loaded present _
  · have outcome : loadTypes.outcome w = (.error (.noInput w.analysis.settings.classesDir), w) := by
      simp [loadTypes, present]
    rw [outcome]
    exact .noInput _

theorem extract_effect (w : Workspace) :
    Effect w .extract (Call.extract.stage.outcome w).1 (Call.extract.stage.outcome w).2 := by
  rw [Call.stage, outcome_discard]
  cases present : w.analysis.loaded with
  | none =>
    have outcome : extractCalls.outcome w = (.error (.stage .extractBeforeLoad), w) := by
      simp [extractCalls, present]
    rw [outcome]
    exact .refused (by simp [Analysis.refusal, present])
  | some loaded =>
    cases first : w.analysis.extracted with
    | true =>
      have outcome : extractCalls.outcome w = (.error (.stage .extractAgain), w) := by
        simp [extractCalls, present, first]
      rw [outcome]
      exact .refused (by simp [Analysis.refusal, present, first])
    | false =>
      cases run : Extraction.addTypes w.analysis.settings.excludedPrefixes loaded.types
          { graph := w.analysis.graph, endpoints := w.analysis.endpoints } with
      | mk found error =>
        cases error with
        | none =>
          obtain ⟨log, outcome⟩ := extractCalls_outcome w loaded found present first run
          rw [outcome]
          exact .extracted present first run log
        | some e =>
          have outcome : extractCalls.outcome w = (.error (.load (.decode e)),
              { w with
                analysis :=
                  { w.analysis with
                    graph := found.graph, endpoints := found.endpoints, extracted := false }
                log := w.log ++ found.log }) := by
            simp [extractCalls, present, first, run]
          rw [outcome]
          exact .broken present first run _

theorem resolve_effect (w : Workspace) :
    Effect w .resolve (Call.resolve.stage.outcome w).1 (Call.resolve.stage.outcome w).2 := by
  rw [Call.stage, outcome_discard]
  cases ready : w.analysis.extracted with
  | false =>
    have outcome : resolveCalls.outcome w = (.error (.stage .resolveBeforeExtract), w) := by
      simp [resolveCalls, ready]
    rw [outcome]
    exact .refused (by simp [Analysis.refusal, ready])
  | true =>
    cases first : w.analysis.resolved with
    | true =>
      have outcome : resolveCalls.outcome w = (.error (.stage .resolveAgain), w) := by
        simp [resolveCalls, ready, first]
      rw [outcome]
      exact .refused (by simp [Analysis.refusal, ready, first])
    | false =>
      rw [resolveCalls_outcome w ready first]
      exact .resolved ready first _

theorem write_effect (w : Workspace) (store : Option BodyStore) :
    Effect w (.write store)
    ((Call.write store).stage.outcome w).1 ((Call.write store).stage.outcome w).2 := by
  rw [Call.stage, outcome_discard]
  cases ready : w.analysis.resolved with
  | false =>
    have outcome : (writeArtifacts store).outcome w = (.error (.stage .writeBeforeResolve), w) := by
      simp [writeArtifacts, ready]
    rw [outcome]
    exact .refused (by simp [Analysis.refusal, ready])
  | true =>
    let output : Artifact.Output :=
      { graph := w.analysis.graph, dir := w.analysis.settings.outputDir,
        bodies := store.map (bodiesFor w.disk w.analysis) }
    have grows :=
      output.save_grows w.analysis.endpoints.endpoints w.analysis.endpoints.controllers w.disk
    cases saved :
      output.save w.analysis.endpoints.endpoints w.analysis.endpoints.controllers w.disk with
    | mk disk rest =>
      obtain ⟨log, result⟩ := rest
      rw [saved] at grows
      cases result with
      | error e =>
        have outcome :
            (writeArtifacts store).outcome w =
            (.error (.noOutput e), { w with disk, log := w.log ++ log }) := by
          simp [writeArtifacts, ready, output, saved]
        rw [outcome]
        exact .written store ready grows (by simp [Except.map]) _
      | ok report =>
        have outcome :
            (writeArtifacts store).outcome w =
            (.ok report, { w with disk, log := w.log ++ log }) := by
          simp [writeArtifacts, ready, output, saved, Except.map]
        rw [outcome]
        exact .written store ready grows (by simp [Except.map]) _

theorem effect_of_call (call : Call) (w : Workspace) :
    Effect w call (call.stage.outcome w).1 (call.stage.outcome w).2 := by
  cases call with
  | load => exact load_effect w
  | extract => exact extract_effect w
  | resolve => exact resolve_effect w
  | write store => exact write_effect w store

theorem effect_of_outcome {call : Call} {w w' : Workspace} {result : Except RunError Unit}
    (run : call.stage.outcome w = (result, w')) : Effect w call result w' := by
  have effect := effect_of_call call w
  rw [run] at effect
  exact effect

namespace Effect

variable {w w' : Workspace} {call : Call} {result : Except RunError Unit}

theorem unchanged_of_refused (effect : Effect w call result w') {e : StageError}
    (refused : result = .error (.stage e)) :
    w' = w := by
  cases effect with
  | refused => rfl
  | noInput => rfl
  | written store ready grows passed log => exact absurd refused (passed e)
  | loaded | extracted | broken | resolved => cases refused

theorem refused_iff (effect : Effect w call result w') (e : StageError) :
    result = .error (.stage e) ↔ w.analysis.refusal call = some e := by
  cases effect with
  | refused reason => simp [reason]
  | noInput | loaded => simp [Analysis.refusal]
  | extracted present first | broken present first => simp [Analysis.refusal, present, first]
  | resolved ready first => simp [Analysis.refusal, ready, first]
  | written store ready grows passed => simp [Analysis.refusal, ready, passed]

theorem keeps_resolved (effect : Effect w call result w') (resolved : w.analysis.resolved = true) :
    w'.analysis.resolved = true := by
  cases effect with
  | resolved => rfl
  | refused | noInput | loaded | extracted | broken | written => exact resolved

theorem extractions (effect : Effect w call result w') : w'.analysis.extracted.toNat =
    w.analysis.extracted.toNat + if call.isExtract && result.isOk then 1 else 0 := by
  cases effect with
  | extracted present first => simp [first, Call.isExtract, Except.isOk, Except.toBool]
  | broken present first => simp [first, Call.isExtract, Except.isOk, Except.toBool]
  | refused reason => simp [Except.isOk, Except.toBool]
  | noInput | loaded | resolved | written => rfl

theorem resolutions (effect : Effect w call result w') : w'.analysis.resolved.toNat =
    w.analysis.resolved.toNat + if call.isResolve && result.isOk then 1 else 0 := by
  cases effect with
  | resolved ready first => simp [first, Call.isResolve, Except.isOk, Except.toBool]
  | refused reason => simp [Except.isOk, Except.toBool]
  | noInput | loaded | extracted | broken | written => rfl

end Effect

theorem passed_of_resolved {w : Workspace} (resolved : w.analysis.resolved = true)
    (store : Option BodyStore) (e : StageError) : ((Call.write store).stage.outcome w).1 ≠
    .error (.stage e) := by
  rw [ne_eq, (effect_of_call (.write store) w).refused_iff, Analysis.refusal, if_pos resolved]
  exact Option.some_ne_none e ∘ Eq.symm

theorem refused_outcome {w : Workspace} {call : Call} {e : StageError}
    (reason : w.analysis.refusal call = some e) :
    call.stage.outcome w = (.error (.stage e), w) := by
  have effect := effect_of_call call w
  have refused := (effect.refused_iff e).mpr reason
  exact Prod.ext refused (effect.unchanged_of_refused refused)

/-- The analyses that calls can lead to, given what the class files hold. Extraction that failed
leaves behind what it found up to then; it will fail again. -/
inductive Phase (settings : Settings) (types : LoadedTypes) : Analysis → Prop
  | new : Phase settings types { settings }
  | loaded : Phase settings types { settings, loaded := some types }
  | broken (graph : CallGraph) (endpoints : EndpointRegistry)
      (unreadable : ∃ type ∈ types.types, ∃ code, typeCalls type = .error (.unlistedWide code)) :
      Phase settings types { settings, loaded := some types, graph, endpoints }
  | extracted {found : Extraction}
      (done : Extraction.addTypes settings.excludedPrefixes types.types {} = (found, none)) :
      Phase settings types
        { settings, loaded := some types, graph := found.graph, endpoints := found.endpoints,
          extracted := true }
  | resolved {found : Extraction}
      (done : Extraction.addTypes settings.excludedPrefixes types.types {} = (found, none)) :
      Phase settings types
        { settings, loaded := some types,
          graph := (found.graph.resolve (implementers types.types)).graph
          interfaces := some (implementers types.types), endpoints := found.endpoints, extracted :=
            true, resolved := true }

theorem Extraction.unreadable_of_failed {prefixes : List String}
    {types : List ClassFile.CompiledType} {found last : Extraction} {e : DecodeError}
    (failed : found.addTypes prefixes types = (last, some e)) :
    ∃ type ∈ types, ∃ code, typeCalls type = .error (.unlistedWide code) := by
  by_contra readable
  have formatOnly : ∀ type ∈ types, ∀ code, typeCalls type ≠ .error (.unlistedWide code) := by
    intro type member code unreadable
    exact readable ⟨type, member, code, unreadable⟩
  obtain ⟨_, done, _⟩ := addTypes_edges prefixes types found formatOnly
  cases failed.symm.trans done

namespace Phase

variable {settings : Settings} {types : LoadedTypes} {a : Analysis}

theorem settings_eq (phase : Phase settings types a) : a.settings = settings := by
  cases phase <;> rfl

theorem load (phase : Phase settings types a) :
    Phase settings types { a with loaded := some types } := by
  cases phase with
  | new => exact .loaded
  | loaded => exact .loaded
  | broken graph endpoints unreadable => exact .broken graph endpoints unreadable
  | extracted done => exact .extracted done
  | resolved done => exact .resolved done

variable {loaded : LoadedTypes} {found : Extraction}

theorem extract (phase : Phase settings types a) (present : a.loaded = some loaded)
    (first : a.extracted = false)
    (done : Extraction.addTypes a.settings.excludedPrefixes loaded.types
      { graph := a.graph, endpoints := a.endpoints } = (found, none)) :
    Phase settings types
      { a with graph := found.graph, endpoints := found.endpoints, extracted := true } := by
  cases phase with
  | new => cases present
  | loaded =>
    cases present
    exact .extracted done
  | broken graph endpoints unreadable =>
    cases present
    obtain ⟨type, member, code, failed⟩ := unreadable
    exact absurd failed (Extraction.formatOnly_of_done done type member code)
  | extracted | resolved => cases first

theorem breakOff {e : DecodeError} (phase : Phase settings types a)
    (present : a.loaded = some loaded) (first : a.extracted = false)
    (failed : Extraction.addTypes a.settings.excludedPrefixes loaded.types
      { graph := a.graph, endpoints := a.endpoints } = (found, some e)) :
    Phase settings types
      { a with graph := found.graph, endpoints := found.endpoints, extracted := false } := by
  cases phase with
  | new => cases present
  | loaded | broken =>
    cases present
    exact .broken _ _ (Extraction.unreadable_of_failed failed)
  | extracted | resolved => cases first

theorem resolve (phase : Phase settings types a) (ready : a.extracted = true)
    (first : a.resolved = false) :
    Phase settings types
      { a with
        graph := (a.graph.resolve (implementers ((a.loaded.map LoadedTypes.types).getD []))).graph
        interfaces := some (implementers ((a.loaded.map LoadedTypes.types).getD []))
        resolved := true } := by
  cases phase with
  | new | loaded | broken => cases ready
  | extracted done => exact .resolved done
  | resolved => cases first

theorem ordered (phase : Phase settings types a) :
    (a.resolved = true → a.extracted = true) ∧ (a.extracted = true → a.loaded.isSome = true) := by
  cases phase <;> simp

end Phase

structure Kept (start w : Workspace) : Prop where
  phase : Phase start.analysis.settings
    (LoadedTypes.ofDir start.disk start.analysis.settings.classesDir).1 w.analysis
  same : Disk.SameClasses start.analysis.settings.classesDir start.disk w.disk
  present : w.analysis.loaded.isSome = true →
    start.disk.isDir start.analysis.settings.classesDir = true

theorem Kept.effect {start w w' : Workspace} {call : Call} {result : Except RunError Unit}
    (kept : Kept start w) (straight : start.disk.Straight start.analysis.settings.classesDir)
    (effect : Effect w call result w') :
    Kept start w' := by
  obtain ⟨phase, same, present⟩ := kept
  have settings := phase.settings_eq
  cases effect with
  | refused | noInput => exact ⟨phase, same, present⟩
  | loaded isDir log =>
    rw [settings] at isDir
    refine ⟨?_, same, fun _ => same.isDir ▸ isDir⟩
    rw [settings, ofDir_of_sameClasses same]
    exact phase.load
  | extracted there first done log => exact ⟨phase.extract there first done, same, present⟩
  | broken there first failed log => exact ⟨phase.breakOff there first failed, same, present⟩
  | resolved ready first log => exact ⟨phase.resolve ready first, same, present⟩
  | written store ready grows passed log =>
    have isDir := present (phase.ordered.2 (phase.ordered.1 ready))
    refine ⟨phase, same.trans (grows.sameClasses ?_ ?_), present⟩
    · rw [same.isDir, isDir]
    · intro path member
      exact straight path (same.files ▸ member)

/-- What was called so far, with what came of it, and the workspace after it. Between the calls all
else on the disk than the class files may change. -/
inductive History (start : Workspace) : List (Call × Except RunError Unit) → Workspace → Prop
  | new : History start [] start
  | call {past : List (Call × Except RunError Unit)} {w w' : Workspace}
      (history : History start past w) {call : Call}
      {result : Except RunError Unit} (run : call.stage.outcome w = (result, w')) :
      History start (past ++ [(call, result)]) w'
  | outside {past : List (Call × Except RunError Unit)} {w : Workspace}
      (history : History start past w) {disk : Disk}
      (same : Disk.SameClasses start.analysis.settings.classesDir w.disk disk) :
      History start past { w with disk }

def successes (kind : Call → Bool) (past : List (Call × Except RunError Unit)) : Nat :=
  past.countP fun entry => kind entry.1 && entry.2.isOk

namespace History

variable {start w : Workspace} {past : List (Call × Except RunError Unit)}

theorem kept (history : History start past w)
    (fresh : start.analysis = { settings := start.analysis.settings })
    (straight : start.disk.Straight start.analysis.settings.classesDir) : Kept start w := by
  induction history with
  | new =>
    refine ⟨?_, .refl _ _, ?_⟩
    · rw [fresh]
      exact .new
    · rw [fresh]
      intro impossible
      cases impossible
  | call history run ih => exact ih.effect straight (effect_of_outcome run)
  | outside history same ih => exact ⟨ih.phase, ih.same.trans same, ih.present⟩

theorem successes_concat (kind : Call → Bool) (call : Call) (result : Except RunError Unit) :
    successes kind (past ++ [(call, result)]) = successes kind past + if kind call && result.isOk
      then 1 else 0 := by
  rw [successes, List.countP_append, List.countP_singleton]
  rfl

theorem successes_eq (history : History start past w)
    (fresh : start.analysis = { settings := start.analysis.settings }) :
    successes Call.isExtract past = w.analysis.extracted.toNat ∧
      successes Call.isResolve past = w.analysis.resolved.toNat := by
  induction history with
  | new =>
    rw [fresh]
    exact ⟨rfl, rfl⟩
  | call history run ih =>
    have effect := effect_of_outcome run
    rw [successes_concat, successes_concat, ih.1, ih.2, effect.extractions, effect.resolutions]
    exact ⟨rfl, rfl⟩
  | outside history same ih => exact ih

end History

theorem load_succeeds (w : Workspace)
    (present : w.disk.isDir w.analysis.settings.classesDir = true) :
    ∃ w', Call.load.stage.outcome w = (.ok (), w') ∧ w'.analysis =
      { w.analysis with
        loaded := some (LoadedTypes.ofDir w.disk w.analysis.settings.classesDir).1 } := by
  rw [Call.stage, outcome_discard, loadTypes_outcome w present]
  exact ⟨_, rfl, rfl⟩

theorem extract_succeeds (w : Workspace) {loaded : LoadedTypes} {found : Extraction}
    (present : w.analysis.loaded = some loaded) (first : w.analysis.extracted = false)
    (done : Extraction.addTypes w.analysis.settings.excludedPrefixes loaded.types
      { graph := w.analysis.graph, endpoints := w.analysis.endpoints } = (found, none)) :
    ∃ w', Call.extract.stage.outcome w = (.ok (), w') ∧ w'.analysis =
      { w.analysis with
        graph := found.graph, endpoints := found.endpoints, extracted := true } := by
  obtain ⟨log, outcome⟩ := extractCalls_outcome w loaded found present first done
  rw [Call.stage, outcome_discard, outcome]
  exact ⟨_, rfl, rfl⟩

theorem resolve_succeeds (w : Workspace) (ready : w.analysis.extracted = true)
    (first : w.analysis.resolved = false) :
    ∃ w', Call.resolve.stage.outcome w = (.ok (), w') ∧ w'.analysis =
      { w.analysis with
        graph := (w.analysis.graph.resolve
          (implementers ((w.analysis.loaded.map LoadedTypes.types).getD []))).graph
        interfaces := some (implementers ((w.analysis.loaded.map LoadedTypes.types).getD []))
        resolved := true } := by
  rw [Call.stage, outcome_discard, resolveCalls_outcome w ready first]
  exact ⟨_, rfl, rfl⟩

theorem ordered_of_resolved {start : Workspace} {a : Analysis}
    (fresh : start.analysis = { settings := start.analysis.settings })
    (present : start.disk.isDir start.analysis.settings.classesDir = true)
    (phase : Phase start.analysis.settings
      (LoadedTypes.ofDir start.disk start.analysis.settings.classesDir).1 a)
    (resolved : a.resolved = true) :
    ∃ first second third, Call.load.stage.outcome start = (.ok (), first) ∧
      Call.extract.stage.outcome first = (.ok (), second) ∧
      Call.resolve.stage.outcome second = (.ok (), third) ∧
        third.analysis = a := by
  cases phase with
  | new | loaded | broken | extracted => cases resolved
  | @resolved found done =>
    obtain ⟨first, load, loaded⟩ := load_succeeds start present
    rw [fresh] at loaded
    obtain ⟨second, extract, extracted⟩ := extract_succeeds first (by rw [loaded]) (by rw [loaded])
      (by rw [loaded]; exact done)
    rw [loaded] at extracted
    obtain ⟨third, resolve, all⟩ := resolve_succeeds second (by rw [extracted]) (by rw [extracted])
    rw [extracted] at all
    exact ⟨first, second, third, load, extract, resolve, all⟩

/-- Whatever is called on a new analysis, in any order and however often: a call that is refused
changes nothing, calls are resolved only after they were extracted and extracted only after types
were loaded, each at most once, and where artifacts may be written, the analysis is what loading,
extracting and resolving give in this order. -/
theorem history_ordered {start w : Workspace} {past : List (Call × Except RunError Unit)}
    (history : History start past w)
    (fresh : start.analysis = { settings := start.analysis.settings })
    (regular : start.disk.root.Regular) (rooted : isAbsolute start.disk.cwd = true) :
    (∀ (call : Call) (e : StageError), (call.stage.outcome w).1 = .error (.stage e) →
      (call.stage.outcome w).2 = w) ∧ (w.analysis.resolved = true → w.analysis.extracted = true) ∧
    (w.analysis.extracted = true → w.analysis.loaded.isSome = true) ∧
    successes Call.isExtract past ≤ 1 ∧ successes Call.isResolve past ≤ 1 ∧
    ∀ store, (∀ e, ((Call.write store).stage.outcome w).1 ≠ .error (.stage e)) →
      ∃ first second third, Call.load.stage.outcome start = (.ok (), first) ∧
        Call.extract.stage.outcome first = (.ok (), second) ∧
        Call.resolve.stage.outcome second = (.ok (), third) ∧
          third.analysis = w.analysis := by
  have kept := history.kept fresh (Disk.straight_of_regular regular rooted _)
  obtain ⟨extractions, resolutions⟩ := history.successes_eq fresh
  obtain ⟨afterExtract, afterLoad⟩ := kept.phase.ordered
  refine ⟨?_, afterExtract, afterLoad, ?_, ?_, ?_⟩
  · intro call e refused
    exact (effect_of_call call w).unchanged_of_refused refused
  · rw [extractions]
    exact Bool.toNat_le _
  · rw [resolutions]
    exact Bool.toNat_le _
  · intro store passed
    have resolved : w.analysis.resolved = true := by
      by_contra unresolved
      have refused : (Call.write store).stage.outcome w = _ := refused_outcome (if_neg unresolved)
      exact passed _ (congrArg Prod.fst refused)
    exact ordered_of_resolved fresh
      (kept.present (afterLoad (afterExtract resolved))) kept.phase resolved

def soleClass : List UInt8 :=
  [0xCA, 0xFE, 0xBA, 0xBE, 0, 0, 0, 52, 0, 11, 1, 0, 1, 0x41, 7, 0, 1, 1, 0, 1, 0x42, 7, 0, 3,
   1, 0, 3, 0x72, 0x75, 0x6E, 1, 0, 3, 0x28, 0x29, 0x56, 1, 0, 4, 0x43, 0x6F, 0x64, 0x65, 1,
   0, 2, 0x67, 0x6F, 12, 0, 8, 0, 6, 10, 0, 4, 0, 9, 0, 0x21, 0, 2, 0, 0, 0, 0, 0, 0, 0, 1, 0, 1,
   0, 5, 0, 6, 0, 1, 0, 7, 0, 0, 0, 16, 0, 0, 0, 0, 0, 0, 0, 4, 0xB8, 0, 10, 0xB1, 0, 0, 0, 0, 0, 0]

def soleWorkspace : Workspace :=
  { disk := { root := .dir [("classes", .dir [("A.class", .file soleClass)])] }, parser := .ok .bare
    analysis := { settings := { classesDir := "classes", outputDir := "classes" } } }

theorem soleWorkspace_regular : soleWorkspace.disk.root.Regular := by
  have name : PlainName "A.class" := ⟨by decide, by decide, by decide, by decide⟩
  have folder : PlainName "classes" := ⟨by decide, by decide, by decide, by decide⟩
  refine .dir (List.forall_mem_singleton.mpr folder) (List.forall_mem_singleton.mpr ?_)
  exact .dir (List.forall_mem_singleton.mpr name) (List.forall_mem_singleton.mpr (.file soleClass))

theorem soleWorkspace_classFiles : soleWorkspace.disk.classFiles "classes" =
    ["/classes/A.class"] := by
  have found : soleWorkspace.disk.find "classes" = .ok (.dir [("A.class", .file soleClass)]) := rfl
  have path : absolute soleWorkspace.disk.cwd "classes" = "/classes" := by decide
  have listed : FileTree.classFile? ("A.class", .file soleClass) = some "A.class" := rfl
  have joined : joinPath "/classes" "A.class" = "/classes/A.class" := by decide
  have noneBelow : classFilesIn "/classes/A.class" (.file soleClass) = [] := by rw [classFilesIn]
  rw [Disk.classFiles, found, path]
  simp [FileTree.classFilesIn_dir, listed, joined, Text.sortTexts, FileTree.filesBelow, noneBelow]

/-- Calls out of order and repeated, among them a second load after artifacts were written beside
the class file. -/
def shuffledCalls : List Call :=
  [.extract, .load, .write none, .extract, .resolve, .extract, .write none, .load]

theorem history_ordered_shuffled : ∃ past w first second third,
    past.map Prod.fst = shuffledCalls ∧ History soleWorkspace past w ∧
      (∀ e, ((Call.write none).stage.outcome w).1 ≠ .error (.stage e)) ∧
        Call.load.stage.outcome soleWorkspace = (.ok (), first) ∧
        Call.extract.stage.outcome first = (.ok (), second) ∧
        Call.resolve.stage.outcome second = (.ok (), third) ∧ third.analysis = w.analysis := by
  have readable : (Extraction.addTypes soleWorkspace.analysis.settings.excludedPrefixes
      (LoadedTypes.ofDir soleWorkspace.disk "classes").1.types {}).2 = none := by
    simp only [LoadedTypes.ofDir, soleWorkspace_classFiles]
    decide +kernel
  have early : Call.extract.stage.outcome soleWorkspace = _ := refused_outcome rfl
  obtain ⟨loaded, load, afterLoad⟩ := load_succeeds soleWorkspace rfl
  -- From here on the types need not be computed again.
  change loaded.analysis =
    { soleWorkspace.analysis with
      loaded := some (LoadedTypes.ofDir soleWorkspace.disk "classes").1 } at afterLoad
  generalize (LoadedTypes.ofDir soleWorkspace.disk "classes").1 = types at readable afterLoad
  have done :
      Extraction.addTypes soleWorkspace.analysis.settings.excludedPrefixes types.types {} =
      (_, none) :=
    Prod.ext rfl readable
  have unready : (Call.write none).stage.outcome loaded = _ :=
    refused_outcome (by rw [afterLoad]; rfl)
  obtain ⟨extracted, extract, afterExtract⟩ := extract_succeeds loaded (by rw [afterLoad])
    (by rw [afterLoad]; rfl) (by rw [afterLoad]; exact done)
  rw [afterLoad] at afterExtract
  obtain ⟨resolved, resolve, afterResolve⟩ := resolve_succeeds extracted (by rw [afterExtract])
    (by rw [afterExtract]; rfl)
  rw [afterExtract] at afterResolve
  have again : Call.extract.stage.outcome resolved = _ :=
    refused_outcome (by rw [afterResolve]; rfl)
  cases write : (Call.write none).stage.outcome resolved with
  | mk result written =>
    cases reload : Call.load.stage.outcome written with
    | mk result' w =>
      have loads := ((History.new.call early).call load).call unready
      have history := ((((loads.call extract).call resolve).call again).call write).call reload
      have ready : w.analysis.resolved = true :=
        (effect_of_outcome reload).keeps_resolved
          ((effect_of_outcome write).keeps_resolved (by rw [afterResolve]))
      have passed := passed_of_resolved ready none
      obtain ⟨_, _, _, _, _, ordered⟩ := history_ordered history rfl soleWorkspace_regular rfl
      obtain ⟨first, second, third, run⟩ := ordered none passed
      exact ⟨_, w, first, second, third, rfl, history, passed, run⟩

end CallAtlas.Run
