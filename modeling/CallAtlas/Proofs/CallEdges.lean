import CallAtlas.Proofs.Identifiers
import CallAtlas.Proofs.Outcomes
import CallAtlas.Proofs.Stages
import CallAtlas.Proofs.Tables

/-! The edges of the call graph after calls are extracted and calls of interfaces resolved. -/

namespace CallAtlas

open ClassFile Bytecode

def invokeMnemonics : List String :=
  ["invokevirtual", "invokespecial", "invokestatic", "invokeinterface"]

def Decodes (type : CompiledType) : Prop :=
  ∀ method ∈ type.methods, ∀ code, method.code = some code →
    ∃ instructions, decode type.pool code = .ok instructions

def Invokes (type : CompiledType) (caller callee : MethodId) : Prop :=
  ∃ method ∈ type.methods, caller = MethodId.ofOwner type.name method.name ∧
    ∃ code instructions, method.code = some code ∧ decode type.pool code = .ok instructions ∧
      ∃ instruction ∈ instructions, instruction.mnemonic ∈ invokeMnemonics ∧
        ∃ ref, instruction.operands = .method ref ∧ callee = MethodId.ofOwner ref.owner ref.name

def DirectCall (types : List CompiledType) (prefixes : List String)
    (caller callee : MethodId) : Prop :=
  ∃ type ∈ types, Decodes type ∧ Invokes type caller callee ∧
    ∀ part ∈ prefixes, ¬ part.toList <+: callee.toList

/-- `target` is the method of `callee`'s name in a type that declares the owner of `callee` as an
interface. -/
def Implements (types : List CompiledType) (callee target : MethodId) : Prop :=
  ∃ type ∈ types, ∃ interface member, callee = interface ++ "." ++ member ∧ '.' ∉ member.toList ∧
    interface ∈ type.interfaces ∧ target = type.name ++ "." ++ member

theorem invoke_rows : ∀ row ∈ opcodeRows, ∀ name ∈ row.mnemonics,
    (name ∈ invokeMnemonics ↔ row.shape = .method ∨ row.shape = .interfaceMethod) := by
  decide

theorem opcode_row {code : Nat} {opcode : Opcode} (found : opcode? code = some opcode) :
    ∃ row ∈ opcodeRows, opcode.mnemonic ∈ row.mnemonics ∧ opcode.shape = row.shape := by
  obtain ⟨row, member, hit⟩ := List.exists_of_findSome?_eq_some found
  refine ⟨row, member, ?_⟩
  unfold OpcodeRow.find? at hit
  split at hit
  · cases hit
  · obtain ⟨name, listed, rfl⟩ := Option.map_eq_some_iff.mp hit
    exact ⟨List.mem_of_getElem? listed, rfl⟩

theorem invoke_shape {code : Nat} {opcode : Opcode} (found : opcode? code = some opcode) :
    opcode.mnemonic ∈ invokeMnemonics ↔ opcode.shape = .method ∨
    opcode.shape = .interfaceMethod := by
  obtain ⟨row, member, listed, shape⟩ := opcode_row found
  rw [shape]
  exact invoke_rows row member _ listed

theorem tableSwitch_operands {offset : Nat} {bytes : List UInt8} {operands : Operands} {used : Nat}
    (decoded : tableSwitch offset bytes = .ok (operands, used)) :
    ∃ default targets, operands = .switch default targets := by
  simp only [tableSwitch, bind_eq_ok] at decoded
  obtain ⟨_, _, body⟩ := decoded
  split at body
  · cases body
  · obtain ⟨_, _, finish⟩ := bind_eq_ok.mp body
    cases finish
    exact ⟨_, _, rfl⟩

theorem lookupSwitch_operands {offset : Nat} {bytes : List UInt8} {operands : Operands} {used : Nat}
    (decoded : lookupSwitch offset bytes = .ok (operands, used)) :
    ∃ default targets, operands = .switch default targets := by
  simp only [lookupSwitch, bind_eq_ok] at decoded
  obtain ⟨_, _, body⟩ := decoded
  split at body
  · cases body
  · obtain ⟨_, _, finish⟩ := bind_eq_ok.mp body
    cases finish
    exact ⟨_, _, rfl⟩

theorem operands_method_iff {pool : Pool} {opcode : Opcode} {offset : Nat} {bytes : List UInt8}
    {operands : Operands} {used : Nat}
    (decoded : decodeOperands pool opcode offset bytes = .ok (operands, used)) :
    (∃ ref, operands = .method ref) ↔ opcode.shape = .method ∨ opcode.shape = .interfaceMethod := by
  unfold decodeOperands at decoded
  cases shape : opcode.shape
  case tableSwitch =>
    simp only [shape] at decoded
    obtain ⟨default, targets, rfl⟩ := tableSwitch_operands decoded
    simp
  case lookupSwitch =>
    simp only [shape] at decoded
    obtain ⟨default, targets, rfl⟩ := lookupSwitch_operands decoded
    simp
  case wide =>
    simp only [shape, bind_eq_ok] at decoded
    obtain ⟨_, _, body⟩ := decoded
    split at body
    · obtain ⟨_, _, finish⟩ := bind_eq_ok.mp body
      cases finish
      simp
    · split at body
      · cases body
      · obtain ⟨_, _, finish⟩ := bind_eq_ok.mp body
        cases finish
        simp
  -- In every other shape the operands are those of one constructor.
  all_goals
    simp only [shape, bind_eq_ok, pure_eq_ok, Prod.mk.injEq] at decoded
    grind

theorem decodeOne_invoked_iff {pool : Pool} {offset : Nat} {code : UInt8} {rest : List UInt8}
    {instruction : Instruction} {used : Nat}
    (decoded : decodeOne pool offset code rest = .ok (instruction, used)) :
    instruction.mnemonic ∈ invokeMnemonics ↔ ∃ ref, instruction.operands = .method ref := by
  unfold decodeOne at decoded
  split at decoded
  · cases decoded
  · rename_i opcode found
    obtain ⟨⟨operands, used'⟩, inner, finish⟩ := bind_eq_ok.mp decoded
    cases finish
    rw [operands_method_iff inner]
    exact invoke_shape found

theorem mem_traceFrom {pool : Pool} {instruction : Instruction} {offset : Nat} {bytes : List UInt8}
    (member : instruction ∈ (traceFrom pool offset bytes).instructions) :
    ∃ place code rest used, decodeOne pool place code rest = .ok (instruction, used) := by
  fun_induction traceFrom pool offset bytes with
  | case1 => cases member
  | case2 => cases member
  | case3 offset code rest first used decoded trace ih =>
    rcases List.mem_cons.mp member with rfl | later
    · exact ⟨offset, code, rest, used, decoded⟩
    · exact ih later

theorem decode_eq_ok {pool : Pool} {code : List UInt8} {instructions : List Instruction}
    (decoded : decode pool code = .ok instructions) :
    instructions = (trace pool code).instructions := by
  simp only [decode] at decoded
  split at decoded
  · cases decoded
    rfl
  · cases decoded

theorem mem_decode_invoked_iff {pool : Pool} {code : List UInt8} {instructions : List Instruction}
    (decoded : decode pool code = .ok instructions) {instruction : Instruction}
    (member : instruction ∈ instructions) :
    instruction.mnemonic ∈ invokeMnemonics ↔ ∃ ref, instruction.operands = .method ref := by
  rw [decode_eq_ok decoded] at member
  obtain ⟨_, _, _, _, one⟩ := mem_traceFrom member
  exact decodeOne_invoked_iff one

theorem invoked?_eq_some {instruction : Instruction} {ref : MethodRef} :
    instruction.invoked? = some ref ↔ instruction.operands = .method ref := by
  unfold Instruction.invoked?
  split
  · rename_i found eq
    simp [eq]
  · rename_i other
    constructor
    · intro impossible
      cases impossible
    · intro eq
      exact (other ref eq).elim

theorem mem_methodCalls {type : CompiledType} {method : CompiledMethod} {calls : List Call}
    (done : methodCalls type method = .ok calls) (call : Call) :
    call ∈ calls ↔ call.caller = MethodId.ofOwner type.name method.name ∧
      ∃ code instructions, method.code = some code ∧ decode type.pool code = .ok instructions ∧
        ∃ instruction ∈ instructions, instruction.mnemonic ∈ invokeMnemonics ∧
          ∃ ref, instruction.operands = .method ref ∧
            call.callee = MethodId.ofOwner ref.owner ref.name := by
  unfold methodCalls at done
  split at done
  · rename_i absent
    cases done
    simp [absent]
  · rename_i code present
    obtain ⟨instructions, decoded, finish⟩ := bind_eq_ok.mp done
    cases finish
    constructor
    · intro member
      obtain ⟨ref, found, rfl⟩ := List.mem_map.mp member
      obtain ⟨instruction, inside, names⟩ := List.mem_filterMap.mp found
      have operands := invoked?_eq_some.mp names
      have invokes := (mem_decode_invoked_iff decoded inside).mpr ⟨ref, operands⟩
      exact ⟨rfl, code, instructions, present, decoded, instruction, inside, invokes,
        ref, operands, rfl⟩
    · rintro ⟨caller, code', instructions', present', decoded', instruction, inside, _, ref,
        operands, callee⟩
      cases present.symm.trans present'
      cases decoded.symm.trans decoded'
      have found := List.mem_filterMap.mpr ⟨instruction, inside, invoked?_eq_some.mpr operands⟩
      refine List.mem_map.mpr ⟨ref, found, ?_⟩
      rw [Call.ofRef, ← caller, ← callee]

theorem decodes_method {type : CompiledType} {method : CompiledMethod} {calls : List Call}
    (done : methodCalls type method = .ok calls) :
    ∀ code, method.code = some code → ∃ instructions, decode type.pool code = .ok instructions := by
  intro code present
  simp only [methodCalls, present] at done
  obtain ⟨instructions, decoded, _⟩ := bind_eq_ok.mp done
  exact ⟨instructions, decoded⟩

def typeCalls (type : CompiledType) : Decoded (List Call) := do
  return (← type.methods.mapM (methodCalls type)).flatten

theorem typeCalls_ok {type : CompiledType} {calls : List Call} (done : typeCalls type = .ok calls) :
    Decodes type ∧ ∀ call, call ∈ calls ↔ Invokes type call.caller call.callee := by
  obtain ⟨parts, each, finish⟩ := bind_eq_ok.mp done
  cases finish
  constructor
  · intro method declared
    obtain ⟨part, own⟩ := exists_of_mapM_eq_ok each method declared
    exact decodes_method own
  · intro call
    rw [List.mem_flatten]
    constructor
    · rintro ⟨part, inside, member⟩
      obtain ⟨method, declared, own⟩ := (mem_of_mapM_eq_ok each part).mp inside
      exact ⟨method, declared, (mem_methodCalls own call).mp member⟩
    · rintro ⟨method, declared, holds⟩
      obtain ⟨part, own⟩ := exists_of_mapM_eq_ok each method declared
      have inside := (mem_of_mapM_eq_ok each part).mpr ⟨method, declared, own⟩
      exact ⟨part, inside, (mem_methodCalls own call).mpr holds⟩

theorem typeCalls_error {type : CompiledType} {e : DecodeError}
    (failed : typeCalls type = .error e) :
    ¬ Decodes type := by
  intro decodes
  have stuck : type.methods.mapM (methodCalls type) = .error e := by
    unfold typeCalls at failed
    cases each : type.methods.mapM (methodCalls type) with
    | error e' =>
      rw [each] at failed
      cases failed
      rfl
    | ok parts =>
      rw [each] at failed
      cases failed
  obtain ⟨method, declared, reason⟩ := exists_of_mapM_eq_error stuck
  unfold methodCalls at reason
  split at reason
  · cases reason
  · rename_i code present
    obtain ⟨instructions, decoded⟩ := decodes method declared code present
    rw [decoded] at reason
    cases reason

namespace CallGraph

theorem mem_edges {g : CallGraph} {caller callee : MethodId} :
    (caller, callee) ∈ g.edges ↔ ∃ row ∈ g.rows, row.1 = caller ∧ callee ∈ row.2 := by
  simp only [edges, List.mem_flatMap, List.mem_map, Prod.mk.injEq]
  constructor
  · rintro ⟨row, present, _, member, rfl, rfl⟩
    exact ⟨row, present, rfl, member⟩
  · rintro ⟨row, present, rfl, member⟩
    exact ⟨row, present, callee, member, rfl, rfl⟩

theorem mem_rows_modify (rows : Table MethodId (List MethodId))
    (source target caller callee : MethodId) :
    (∃ row ∈ rows.modify source [] (insertNew target), row.1 = caller ∧ callee ∈ row.2) ↔
      (∃ row ∈ rows, row.1 = caller ∧ callee ∈ row.2) ∨ caller = source ∧ callee = target := by
  induction rows with
  | nil => simp [Table.modify, eq_comm]
  | cons row rows ih =>
    obtain ⟨first, callees⟩ := row
    by_cases here : first = source
    · subst here
      simp only [Table.modify, ↓reduceIte, List.exists_mem_cons_iff, mem_insertNew]
      grind
    · simp only [Table.modify, here, ↓reduceIte, List.exists_mem_cons_iff, ih]
      exact or_assoc.symm

theorem mem_edges_addEdge (g : CallGraph) (source target caller callee : MethodId) :
    (caller, callee) ∈ (g.addEdge source target).edges ↔ (caller, callee) ∈ g.edges ∨
    caller = source ∧ callee = target := by
  rw [mem_edges, mem_edges]
  exact mem_rows_modify g.rows source target caller callee

theorem mem_edges_addEdges (g : CallGraph) (more : List (MethodId × MethodId))
    (caller callee : MethodId) :
    (caller, callee) ∈ (g.addEdges more).edges ↔ (caller, callee) ∈ g.edges ∨
    (caller, callee) ∈ more := by
  unfold addEdges
  induction more generalizing g with
  | nil => simp
  | cons edge more ih =>
    rw [List.foldl_cons, ih, mem_edges_addEdge, List.mem_cons, or_assoc]
    obtain ⟨source, target⟩ := edge
    rw [Prod.mk.injEq]

def addCalls (g : CallGraph) (prefixes : List String) (calls : List Call) : CallGraph :=
  let kept := calls.filter fun call => !MethodId.isExcluded prefixes call.callee
  g.addEdges (kept.map fun call => (call.caller, call.callee))

theorem addCalls_cons (g : CallGraph) (prefixes : List String) (call : Call) (calls : List Call) :
    g.addCalls prefixes (call :: calls) =
      if MethodId.isExcluded prefixes call.callee then g.addCalls prefixes calls
      else (g.addEdge call.caller call.callee).addCalls prefixes calls := by
  unfold addCalls
  cases left : MethodId.isExcluded prefixes call.callee <;> simp [left, addEdges]

theorem mem_edges_addCalls (g : CallGraph) (prefixes : List String) (calls : List Call)
    (caller callee : MethodId) :
    (caller, callee) ∈ (g.addCalls prefixes calls).edges ↔
      (caller, callee) ∈ g.edges ∨ ⟨caller, callee⟩ ∈ calls ∧
      MethodId.isExcluded prefixes callee = false := by
  rw [addCalls, mem_edges_addEdges]
  apply or_congr_right
  constructor
  · intro member
    obtain ⟨call, kept, eq⟩ := List.mem_map.mp member
    cases eq
    simpa using kept
  · intro kept
    refine List.mem_map.mpr ⟨⟨caller, callee⟩, ?_, rfl⟩
    simpa using kept

end CallGraph

theorem isExcluded_eq_false {prefixes : List String} {id : MethodId} :
    MethodId.isExcluded prefixes id = false ↔ ∀ part ∈ prefixes, ¬ part.toList <+: id.toList := by
  simp [MethodId.isExcluded, Text.startsWithAny]

namespace GraphRun

theorem outcome_decoding (type : CompiledType) (methods : List CompiledMethod) (g : CallGraph) :
    Fallible.outcome (methods.mapM fun method => Fallible.ofExcept (methodCalls type method)) g =
      (methods.mapM (methodCalls type), g) := by
  induction methods generalizing g with
  | nil => rfl
  | cons method methods ih =>
    rw [List.mapM_cons, List.mapM_cons, Fallible.outcome_bind, Fallible.outcome_ofExcept]
    cases methodCalls type method with
    | error e => rfl
    | ok calls =>
      simp only [Fallible.outcome_bind, ih]
      cases methods.mapM (methodCalls type) <;> rfl

theorem outcome_record (prefixes : List String) (call : Call) (g : CallGraph) :
    (record prefixes call).outcome g = (.ok (),
      if MethodId.isExcluded prefixes call.callee then g
        else g.addEdge call.caller call.callee) := by
  unfold record
  cases MethodId.isExcluded prefixes call.callee <;> rfl

theorem outcome_recording (prefixes : List String) (calls : List Call) (g : CallGraph) :
    Fallible.outcome (forM calls (record prefixes)) g = (.ok (), g.addCalls prefixes calls) := by
  induction calls generalizing g with
  | nil => rfl
  | cons call calls ih =>
    rw [List.forM_cons, Fallible.outcome_bind, outcome_record, CallGraph.addCalls_cons]
    cases MethodId.isExcluded prefixes call.callee <;> exact ih _

/-- If a method cannot be decoded the graph is as it was; otherwise all calls are recorded. -/
theorem addType_outcome (prefixes : List String) (type : CompiledType) (g : CallGraph) :
    (addType prefixes type).outcome g = match typeCalls type with
      | .error e => (.error e, g)
      | .ok calls =>
        (.ok ⟨calls.length, [debugLog s!"{type.name}: {calls.length} call instructions"]⟩,
          g.addCalls prefixes calls) := by
  simp only [addType, typeCalls, Fallible.outcome_bind, outcome_decoding]
  cases type.methods.mapM (methodCalls type) with
  | error e => rfl
  | ok decoded =>
    simp only [outcome_recording, Fallible.outcome_pure]
    rfl

end GraphRun

namespace Run.Extraction

theorem graph_addType (prefixes : List String) (type : CompiledType) (found : Extraction) :
    (found.addType prefixes type).1.graph =
    ((GraphRun.addType prefixes type).outcome found.graph).2 := by
  unfold addType
  rcases (GraphRun.addType prefixes type).outcome found.graph with ⟨(_ | _) | _, _⟩ <;> rfl

theorem addType_of_ok {type : CompiledType} {calls : List Call} (done : typeCalls type = .ok calls)
    (prefixes : List String) (found : Extraction) :
    ∃ next, found.addType prefixes type = (next, none) ∧
      next.graph = found.graph.addCalls prefixes calls := by
  simp only [addType, GraphRun.addType_outcome, done]
  exact ⟨_, rfl, rfl⟩

theorem addType_of_format {type : CompiledType} {e : FormatError}
    (failed : typeCalls type = .error (.format e)) (prefixes : List String) (found : Extraction) :
    ∃ next, found.addType prefixes type = (next, none) ∧ next.graph = found.graph := by
  simp only [addType, GraphRun.addType_outcome, failed]
  exact ⟨_, rfl, rfl⟩

theorem addType_edges (prefixes : List String) (type : CompiledType) (found : Extraction)
    (formatOnly : ∀ code, typeCalls type ≠ .error (.unlistedWide code)) :
    ∃ next, found.addType prefixes type = (next, none) ∧ ∀ caller callee,
      (caller, callee) ∈ next.graph.edges ↔
        (caller, callee) ∈ found.graph.edges ∨ DirectCall [type] prefixes caller callee := by
  cases outcome : typeCalls type with
  | ok calls =>
    obtain ⟨decodes, invokes⟩ := typeCalls_ok outcome
    obtain ⟨next, step, graph⟩ := addType_of_ok outcome prefixes found
    refine ⟨next, step, ?_⟩
    intro caller callee
    rw [graph, CallGraph.mem_edges_addCalls, isExcluded_eq_false, invokes]
    simp [DirectCall, decodes]
  | error e =>
    have broken := typeCalls_error outcome
    cases e with
    | unlistedWide code => exact (formatOnly code outcome).elim
    | format reason =>
      obtain ⟨next, step, graph⟩ := addType_of_format outcome prefixes found
      refine ⟨next, step, ?_⟩
      intro caller callee
      rw [graph]
      simp [DirectCall, broken]

theorem addTypes_edges (prefixes : List String) (types : List CompiledType) (found : Extraction)
    (formatOnly : ∀ type ∈ types, ∀ code, typeCalls type ≠ .error (.unlistedWide code)) :
    ∃ last, found.addTypes prefixes types = (last, none) ∧ ∀ caller callee,
      (caller, callee) ∈ last.graph.edges ↔
        (caller, callee) ∈ found.graph.edges ∨ DirectCall types prefixes caller callee := by
  induction types generalizing found with
  | nil => exact ⟨found, rfl, by simp [DirectCall]⟩
  | cons type rest ih =>
    obtain ⟨next, step, edges⟩ :=
      addType_edges prefixes type found (formatOnly type List.mem_cons_self)
    obtain ⟨last, run, later⟩ :=
      ih next fun t member => formatOnly t (List.mem_cons_of_mem type member)
    refine ⟨last, ?_, ?_⟩
    · simp only [addTypes, step, run]
    · intro caller callee
      rw [later, edges, or_assoc]
      apply or_congr_right
      simp [DirectCall]

end Run.Extraction

theorem mem_implementers_step (interfaces : List String) (name : String) (map : Implementers)
    (owner other : String) :
    other ∈ ((interfaces.foldl (fun map interface => map.modify interface [] (insertNew name))
      map).get? owner).getD [] ↔ other ∈ (map.get? owner).getD [] ∨ owner ∈ interfaces ∧
      other = name := by
  induction interfaces generalizing map with
  | nil => simp
  | cons interface interfaces ih =>
    rw [List.foldl_cons, ih, Table.get?_modify]
    by_cases here : interface = owner
    · subst here
      simp
      tauto
    · have apart : owner ≠ interface := Ne.symm here
      simp [here, apart]

theorem mem_implementers (types : List CompiledType) (owner name : String) :
    name ∈ ((implementers types).get? owner).getD [] ↔ ∃ type ∈ types, owner ∈ type.interfaces ∧
    name = type.name := by
  have general : ∀ map : Implementers,
      name ∈ ((types.foldl (fun map type =>
        type.interfaces.foldl
          (fun map interface => map.modify interface [] (insertNew type.name)) map) map).get?
          owner).getD [] ↔
      name ∈ (map.get? owner).getD [] ∨ ∃ type ∈ types, owner ∈ type.interfaces ∧
      name = type.name := by
    induction types with
    | nil => simp
    | cons type types ih =>
      intro map
      rw [List.foldl_cons, ih, mem_implementers_step, List.exists_mem_cons_iff, or_assoc]
  rw [implementers, general]
  simp [Table.get?]

theorem mem_interfaceTargets {types : List CompiledType} {callee target : MethodId}
    (dotted : '.' ∈ callee.toList) :
    target ∈ interfaceTargets (implementers types) callee ↔ Implements types callee target := by
  simp only [interfaceTargets, List.mem_map, mem_implementers]
  constructor
  · rintro ⟨name, ⟨type, present, declares, rfl⟩, rfl⟩
    exact ⟨type, present, _, _, (MethodId.owner_append_member dotted).symm,
      MethodId.notMem_member callee, declares, rfl⟩
  · rintro ⟨type, present, interface, member, rfl, absent, declares, rfl⟩
    rw [MethodId.owner_append _ _ absent, MethodId.member_append _ _ absent]
    exact ⟨type.name, ⟨type, present, declares, rfl⟩, rfl⟩

theorem mem_edges_resolve (g : CallGraph) (map : Implementers) (caller callee : MethodId) :
    (caller, callee) ∈ (g.resolve map).graph.edges ↔
      ∃ direct, (caller, direct) ∈ g.edges ∧
        (callee = direct ∨ callee ∈ interfaceTargets map direct) := by
  simp only [CallGraph.mem_edges, CallGraph.resolve, List.mem_map]
  constructor
  · rintro ⟨_, ⟨row, present, rfl⟩, rfl, member⟩
    simp only [expandRow, mem_foldl_insertNew, List.mem_flatMap] at member
    rcases member with old | ⟨direct, inside, target⟩
    · exact ⟨callee, ⟨row, present, rfl, old⟩, .inl rfl⟩
    · exact ⟨direct, ⟨row, present, rfl, inside⟩, .inr target⟩
  · rintro ⟨direct, ⟨row, present, rfl, inside⟩, reached⟩
    refine ⟨_, ⟨row, present, rfl⟩, rfl, ?_⟩
    simp only [expandRow, mem_foldl_insertNew, List.mem_flatMap]
    rcases reached with rfl | target
    · exact .inl inside
    · exact .inr ⟨direct, inside, target⟩

theorem DirectCall.dotted {types : List CompiledType} {prefixes : List String}
    {caller callee : MethodId} (call : DirectCall types prefixes caller callee) :
    '.' ∈ callee.toList := by
  obtain ⟨_, _, _, ⟨_, _, _, _, _, _, _, _, _, _, ref, _, rfl⟩, _⟩ := call
  exact MethodId.dot_mem_ofOwner ref.owner ref.name

/-- After both stages the edges are the direct calls and, for each of them, the calls of the
implementations of its callee's interface. -/
theorem resolved_edges_iff (w : Run.Workspace) (settings : Run.Settings)
    (loaded : Project.LoadedTypes) (fresh : w.analysis = { settings, loaded := some loaded })
    (formatOnly : ∀ type ∈ loaded.types, ∀ code, typeCalls type ≠ .error (.unlistedWide code)) :
    ∃ endpoints added extracted resolved,
      Run.extractCalls.outcome w = (.ok endpoints, extracted) ∧
      Run.resolveCalls.outcome extracted = (.ok added, resolved) ∧
      ∀ caller callee, (caller, callee) ∈ resolved.analysis.graph.edges ↔
        ∃ direct, DirectCall loaded.types settings.excludedPrefixes caller direct ∧
          (callee = direct ∨ Implements loaded.types direct callee) := by
  obtain ⟨found, run, edges⟩ := Run.Extraction.addTypes_edges settings.excludedPrefixes loaded.types
    { graph := .empty, endpoints := {} } formatOnly
  obtain ⟨log, extraction⟩ :=
    Run.extractCalls_outcome w loaded found (by rw [fresh]) (by rw [fresh])
    (by rw [fresh]; exact run)
  refine ⟨_, _, _, _, extraction, Run.resolveCalls_outcome _ rfl (by rw [fresh]), ?_⟩
  intro caller callee
  have types : ((w.analysis.loaded.map Project.LoadedTypes.types).getD []) =
      loaded.types := by rw [fresh]; rfl
  simp only [mem_edges_resolve, edges, types]
  apply exists_congr
  intro direct
  have none : (caller, direct) ∉ CallGraph.empty.edges := by simp [CallGraph.edges, CallGraph.empty]
  simp only [none, false_or]
  apply and_congr_right
  intro call
  rw [mem_interfaceTargets call.dotted]

/-- A type that calls a method of an interface, and one that declares the interface and has
malformed code. -/
def shapeTypes : List CompiledType :=
  [{ name := "app.Main", path := "Main.class", access := 33, superName := none, interfaces := []
     methods := [{ name := "run", descriptor := "()V", access := 1,
                   code := some [0xB9, 0, 1, 1, 0, 0xB1] }]
     pool := ⟨[none, some (.interfaceMethod 2 3), some (.classRef 4), some (.nameAndType 5 6),
       some (.utf8 "app/Shape"), some (.utf8 "area"), some (.utf8 "()D")]⟩ },
   { name := "app.Disc", path := "Disc.class", access := 33, superName := none,
     interfaces := ["app.Shape"]
     methods := [{ name := "area", descriptor := "()D", access := 1, code := some [0xFF] }] }]

theorem shapeTypes_calls : shapeTypes.map typeCalls =
    [.ok [⟨"app.Main.run", "app.Shape.area"⟩], .error (.format (.unknownOpcode 0xFF 0))] := by
  decide +kernel

theorem shapeTypes_formatOnly : ∀ type ∈ shapeTypes, ∀ code, typeCalls type ≠
    .error (.unlistedWide code) := by
  intro type present code failed
  have listed := List.mem_map_of_mem (f := typeCalls) present
  rw [shapeTypes_calls, failed] at listed
  simp at listed

def shapeWorkspace : Run.Workspace :=
  { disk := {}, parser := .ok .bare
    analysis :=
      { settings := { classesDir := "classes" }
        loaded := some { root := "classes", types := shapeTypes } } }

theorem shape_directCall :
    DirectCall shapeTypes MethodId.platformPrefixes "app.Main.run" "app.Shape.area" := by
  have calls := shapeTypes_calls
  simp only [shapeTypes, List.map_cons, List.cons.injEq] at calls
  obtain ⟨decodes, invokes⟩ := typeCalls_ok calls.1
  exact ⟨_, List.mem_cons_self, decodes, (invokes ⟨_, _⟩).mp List.mem_cons_self, by decide⟩

theorem resolved_edges_shapes :
    (∀ type ∈ shapeTypes, ∀ code, typeCalls type ≠ .error (.unlistedWide code)) ∧
    ∃ endpoints added extracted resolved,
      Run.extractCalls.outcome shapeWorkspace = (.ok endpoints, extracted) ∧
      Run.resolveCalls.outcome extracted = (.ok added, resolved) ∧
      (∀ caller callee, (caller, callee) ∈ resolved.analysis.graph.edges ↔
        ∃ direct, DirectCall shapeTypes MethodId.platformPrefixes caller direct ∧
          (callee = direct ∨ Implements shapeTypes direct callee)) ∧
      ("app.Main.run", "app.Shape.area") ∈ resolved.analysis.graph.edges ∧
      ("app.Main.run", "app.Disc.area") ∈ resolved.analysis.graph.edges := by
  refine ⟨shapeTypes_formatOnly, ?_⟩
  obtain ⟨endpoints, added, extracted, resolved, extraction, resolution, edges⟩ :=
    resolved_edges_iff shapeWorkspace { classesDir := "classes" }
      { root := "classes", types := shapeTypes } rfl
      shapeTypes_formatOnly
  refine ⟨endpoints, added, extracted, resolved, extraction, resolution, edges, ?_, ?_⟩
  · exact (edges _ _).mpr ⟨_, shape_directCall, .inl rfl⟩
  · have implements : Implements shapeTypes "app.Shape.area" "app.Disc.area" := by
      refine ⟨_, List.mem_cons_of_mem _ List.mem_cons_self, "app.Shape", "area", ?_⟩
      decide
    exact (edges _ _).mpr ⟨_, shape_directCall, .inr implements⟩

end CallAtlas
