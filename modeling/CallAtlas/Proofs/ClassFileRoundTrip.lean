import CallAtlas.Proofs.ModifiedText
import CallAtlas.Proofs.Reading

/-! Reading a class file gives the type that its description stands for. -/

namespace CallAtlas.ClassFile

open Reader

theorem reads_pair (m n : UInt16) : Reads readPair (bytesOf 2 m.toNat ++ bytesOf 2 n.toNat)
    (m.toNat, n.toNat) :=
  Reads.need (by simp) ((Reads.u2 m).bind ((Reads.u2 n).then_pure _))

theorem reads_constant (info : ConstantInfo) (fits : info.Fits) (index : Nat) :
    Reads (readConstant index) info.bytes info.constant := by
  have tag (n : Nat) (small : n < 256) : Reads u1 (bytesOf 1 n) n := Reads.number 1 n small
  cases info with
  | utf8 units =>
    have length := Reads.number 2 (textBytes units).length fits
    have decoded := ModifiedUtf8.decode_textBytes units
    exact (tag 1 (by decide)).bind
      (length.bind ((Reads.block (textBytes units)).last (Reads.lift_bind decoded (Reads.pure _))))
  | integer value =>
    have field := (Reads.u4 value.toUInt32).then_pure fun n => Constant.integer (signed 32 n)
    rw [signed_int32] at field
    exact (tag 3 (by decide)).bind field
  | single bits =>
    have field :=
      (Reads.u4 bits).then_pure fun n => Constant.single (Decimal.Double.ofSingle n.toUInt32)
    simp only [Nat.toUInt32_eq, UInt32.ofNat_toNat] at field
    exact (tag 4 (by decide)).bind field
  | long value =>
    have field := (Reads.number 8 value.toUInt64.toNat value.toUInt64.toNat_lt).then_pure fun n =>
      Constant.long (signed 64 n)
    rw [signed_int64] at field
    exact (tag 5 (by decide)).bind field
  | double bits =>
    have field :=
      (Reads.number 8 bits.toNat bits.toNat_lt).then_pure fun n => Constant.double ⟨n.toUInt64⟩
    simp only [Nat.toUInt64_eq, UInt64.ofNat_toNat] at field
    exact (tag 6 (by decide)).bind field
  | classRef name => exact (tag 7 (by decide)).bind ((Reads.u2 name).then_pure _)
  | string text => exact (tag 8 (by decide)).bind ((Reads.u2 text).then_pure _)
  | field owner nat => exact (tag 9 (by decide)).bind ((reads_pair owner nat).then_pure _)
  | method owner nat => exact (tag 10 (by decide)).bind ((reads_pair owner nat).then_pure _)
  | interfaceMethod owner nat =>
    exact (tag 11 (by decide)).bind ((reads_pair owner nat).then_pure _)
  | nameAndType name descriptor =>
    exact (tag 12 (by decide)).bind ((reads_pair name descriptor).then_pure _)
  | methodHandle kind reference =>
    have enough : 3 ≤ (bytesOf 1 kind.toNat ++ bytesOf 2 reference.toNat).length := by simp
    exact (tag 15 (by decide)).bind
      (Reads.need enough ((Reads.u1 kind).bind ((Reads.u2 reference).then_pure _)))
  | methodType descriptor => exact (tag 16 (by decide)).bind ((Reads.u2 descriptor).then_pure _)
  | dynamic bootstrap nat =>
    exact (tag 17 (by decide)).bind ((reads_pair bootstrap nat).then_pure _)
  | invokeDynamic bootstrap nat =>
    exact (tag 18 (by decide)).bind ((reads_pair bootstrap nat).then_pure _)
  | module name => exact (tag 19 (by decide)).bind ((Reads.u2 name).then_pure _)
  | package name => exact (tag 20 (by decide)).bind ((Reads.u2 name).then_pure _)

theorem slotsOf_cons (info : ConstantInfo) (rest : List ConstantInfo) :
    slotsOf (info :: rest) =
      some info.constant ::
      (if info.constant.isWide then none :: slotsOf rest else slotsOf rest) := by
  rw [slotsOf, List.flatMap_cons]
  split <;> rfl

theorem reads_slots (constants : List ConstantInfo) (fits : ∀ info ∈ constants, info.Fits)
    (index : Nat) :
    Reads (readSlots (slotsOf constants).length index) (constants.flatMap ConstantInfo.bytes)
    (slotsOf constants) := by
  induction constants generalizing index with
  | nil => exact Reads.pure []
  | cons info rest ih =>
    have first := reads_constant info (fits info List.mem_cons_self) index
    have later := ih fun other member => fits other (List.mem_cons_of_mem info member)
    rw [slotsOf_cons, List.flatMap_cons]
    by_cases wide : info.constant.isWide
    · rw [if_pos wide]
      refine first.bind ?_
      rw [if_pos wide]
      exact (later (index + 2)).then_pure _
    · rw [if_neg wide]
      -- A last place is read without the question whether it takes two.
      cases rest with
      | nil =>
        rw [List.flatMap_nil, List.append_nil]
        exact first.then_pure _
      | cons next rest =>
        have more := later (index + 1)
        rw [slotsOf_cons, List.length_cons] at more ⊢
        refine first.bind ?_
        rw [if_neg wide]
        exact more.then_pure _

theorem reads_pool (constants : List ConstantInfo) (fits : ∀ info ∈ constants, info.Fits)
    (size : (poolOf constants).size < 0x10000) :
    Reads readPool (bytesOf 2 (poolOf constants).size ++ constants.flatMap ConstantInfo.bytes)
    (poolOf constants) :=
  (Reads.number 2 _ size).bind ((reads_slots constants fits 1).then_pure _)

theorem reads_text {pool : Pool} {i : UInt16} {text : String}
    (found : pool.text? i.toNat = some text) {β : Type} {f : String → Reader β} {bytes : List UInt8}
    {b : β} (second : Reads (f text) bytes b) :
    Reads (do f (← pool.utf8 (← u2))) (bytesOf 2 i.toNat ++ bytes) b :=
  (Reads.u2 i).bind (Reads.lift_bind (Pool.utf8_eq_ok found) second)

theorem itemsBytes_eq (items : List ElementInfo) :
    itemsBytes items = items.flatMap ElementInfo.bytes := by
  induction items with
  | nil => rfl
  | cons item rest ih => rw [itemsBytes, ih, List.flatMap_cons]

def pairBytes (pair : UInt16 × ElementInfo) : List UInt8 := bytesOf 2 pair.1.toNat ++ pair.2.bytes

theorem pairsBytes_eq (pairs : List (UInt16 × ElementInfo)) :
    pairsBytes pairs = pairs.flatMap pairBytes := by
  induction pairs with
  | nil => rfl
  | cons pair rest ih => rw [pairsBytes, ih, List.flatMap_cons, pairBytes]

theorem itemElements?_eq_some {pool : Pool} {items : List ElementInfo} {values : List Element}
    (known : itemElements? pool items = some values) :
    List.Forall₂ (fun item value => item.element? pool = some value) items values := by
  induction items generalizing values with
  | nil =>
    cases known
    exact .nil
  | cons item rest ih =>
    simp only [itemElements?, Option.bind_eq_bind, Option.bind_eq_some_iff, Option.pure_def,
      Option.some.injEq] at known
    obtain ⟨value, here, more, later, rfl⟩ := known
    exact .cons here (ih later)

theorem pairElements?_eq_some {pool : Pool} {pairs : List (UInt16 × ElementInfo)}
    {values : List (String × Element)} (known : pairElements? pool pairs = some values) :
    List.Forall₂ (fun pair value => pool.text? pair.1.toNat = some value.1 ∧
      pair.2.element? pool = some value.2)
      pairs values := by
  induction pairs generalizing values with
  | nil =>
    cases known
    exact .nil
  | cons pair rest ih =>
    simp only [pairElements?, Option.bind_eq_bind, Option.bind_eq_some_iff, Option.pure_def,
      Option.some.injEq] at known
    obtain ⟨name, named, value, here, more, later, rfl⟩ := known
    exact .cons ⟨named, here⟩ (ih later)

theorem itemsFit_iff (items : List ElementInfo) : ItemsFit items ↔ ∀ item ∈ items, item.Fits := by
  induction items with
  | nil => simp [ItemsFit]
  | cons item rest ih => simp [ItemsFit, ih]

theorem pairsFit_iff (pairs : List (UInt16 × ElementInfo)) : PairsFit pairs ↔
    ∀ pair ∈ pairs, pair.2.Fits := by
  induction pairs with
  | nil => simp [PairsFit]
  | cons pair rest ih => simp only [PairsFit, ih, List.forall_mem_cons]

theorem reads_lookup {α : Type} {index : UInt16} {tag : Nat} {lookup : Nat → Except FormatError α}
    {reader : Nat → Reader Element} {make : α → Reader Element} {a : α} {value : Element}
    (small : tag < 256) (chosen : reader tag = do make (← lookup (← u2)))
    (found : lookup index.toNat = .ok a) (made : Reads (make a) [] value) :
    Reads (u1 >>= reader) (bytesOf 1 tag ++ bytesOf 2 index.toNat) value := by
  refine (Reads.number 1 tag small).bind ?_
  rw [chosen]
  exact (Reads.u2 index).last (Reads.lift_bind found made)

theorem reads_constant_element {pool : Pool} {kind : ConstantKind} {index : UInt16}
    {value : Element}
    (known : (ElementInfo.constant kind index).element? pool = some value) (fuel : Nat) :
    Reads (readElement pool (fuel + 1)) (ElementInfo.constant kind index).bytes value := by
  simp only [ElementInfo.element?, Option.bind_eq_bind, Option.bind_eq_some_iff] at known
  obtain ⟨constant, found, element⟩ := known
  unfold ConstantKind.element? at element
  split at element
  · cases element
    exact reads_lookup (by decide) rfl (Pool.integer_eq_ok found) (Reads.pure _)
  · cases element
    exact reads_lookup (by decide) rfl (Pool.integer_eq_ok found) (Reads.pure _)
  · cases element
    exact reads_lookup (by decide) rfl (Pool.integer_eq_ok found) (Reads.pure _)
  · rename_i unit
    split at element
    · rename_i inRange
      cases element
      refine reads_lookup (by decide) rfl (Pool.integer_eq_ok found) ?_
      rw [charElement, if_pos inRange]
      exact Reads.pure _
    · cases element
  · cases element
    exact reads_lookup (by decide) rfl (Pool.integer_eq_ok found) (Reads.pure _)
  · cases element
    exact reads_lookup (by decide) rfl (Pool.long_eq_ok found) (Reads.pure _)
  · cases element
    exact reads_lookup (by decide) rfl (Pool.single_eq_ok found) (Reads.pure _)
  · cases element
    exact reads_lookup (by decide) rfl (Pool.double_eq_ok found) (Reads.pure _)
  · cases element
    exact reads_lookup (by decide) rfl
      (Pool.utf8_eq_ok (Pool.text?_eq_some.mpr found)) (Reads.pure _)
  · cases element
    exact reads_lookup (by decide) rfl
      (Pool.utf8_eq_ok (Pool.text?_eq_some.mpr found)) (Reads.pure _)
  · cases element

theorem length_le_flatMap {α β : Type} {f : α → List β} {x : α} {xs : List α} (member : x ∈ xs) :
    (f x).length ≤ (xs.flatMap f).length := by
  rw [List.flatMap_def]
  exact (List.sublist_flatten_of_mem (List.mem_map_of_mem member)).length_le

theorem reads_use {pool : Pool} {element : Reader Element} (visible : Bool) {type : UInt16}
    {name : String} {pairs : List (UInt16 × ElementInfo)} {values : List (String × Element)}
    (named : pool.text? type.toNat = some name) (known : pairElements? pool pairs = some values)
    (bound : pairs.length < 0x10000)
    (each : ∀ pair ∈ pairs, ∀ value, pair.2.element? pool = some value →
      Reads element pair.2.bytes value) :
    Reads (readUse pool element visible)
    (bytesOf 2 type.toNat ++ (bytesOf 2 pairs.length ++ pairsBytes pairs))
      ⟨descriptorName name, Table.ofPairs values, visible⟩ := by
  rw [pairsBytes_eq]
  refine reads_text named ((Reads.counted bound ?_).then_pure _)
  refine forall₂_imp_mem (pairElements?_eq_some known) ?_
  intro pair member value parts
  exact reads_text parts.1 ((each pair member value.2 parts.2).then_pure _)

/-- Every level of an element takes a byte, so that as much fuel as there are bytes is enough. -/
theorem reads_element (pool : Pool) (fuel : Nat) (info : ElementInfo) (value : Element)
    (fits : info.Fits) (known : info.element? pool = some value)
    (enough : info.bytes.length ≤ fuel) :
    Reads (readElement pool fuel) info.bytes value := by
  induction fuel generalizing info value with
  | zero =>
    exfalso
    cases info <;> simp [ElementInfo.bytes] at enough
  | succ fuel ih =>
    have tag (c : Char) (small : c.toNat < 256) : Reads u1 (bytesOf 1 c.toNat) c.toNat :=
      Reads.number 1 c.toNat small
    cases info with
    | constant kind index => exact reads_constant_element known fuel
    | enum type constant =>
      simp only [ElementInfo.element?, Option.bind_eq_bind, Option.bind_eq_some_iff,
        Option.pure_def, Option.some.injEq] at known
      obtain ⟨typeName, named, constantName, spelled, rfl⟩ := known
      rw [ElementInfo.bytes, List.append_assoc]
      refine (tag 'e' (by decide)).bind (reads_text named ?_)
      exact (Reads.u2 constant).last (Reads.lift_bind (Pool.utf8_eq_ok spelled) (Reads.pure _))
    | nested type pairs =>
      simp only [ElementInfo.element?, Option.bind_eq_bind, Option.bind_eq_some_iff,
        Option.pure_def, Option.some.injEq] at known
      obtain ⟨name, named, values, inner, rfl⟩ := known
      rw [ElementInfo.bytes, List.append_assoc, List.append_assoc] at enough ⊢
      have each : ∀ pair ∈ pairs, ∀ value, pair.2.element? pool = some value →
          Reads (readElement pool fuel) pair.2.bytes value := by
        intro pair member value found
        refine ih pair.2 value ((pairsFit_iff pairs).mp fits.2 pair member) found ?_
        have part := length_le_flatMap (f := pairBytes) member
        rw [← pairsBytes_eq] at part
        simp only [pairBytes, List.length_append, length_bytesOf] at part enough
        omega
      exact (tag '@' (by decide)).bind ((reads_use true named inner fits.1 each).then_pure _)
    | array items =>
      simp only [ElementInfo.element?, Option.bind_eq_bind, Option.bind_eq_some_iff,
        Option.pure_def, Option.some.injEq] at known
      obtain ⟨values, inner, rfl⟩ := known
      rw [ElementInfo.bytes, List.append_assoc, itemsBytes_eq] at enough ⊢
      have each := forall₂_imp_mem (itemElements?_eq_some inner) fun item member value found => by
        refine ih item value ((itemsFit_iff items).mp fits.2 item member) found ?_
        have part := length_le_flatMap (f := ElementInfo.bytes) member
        simp only [List.length_append, length_bytesOf] at enough
        omega
      exact (tag '[' (by decide)).bind ((Reads.counted fits.1 each).then_pure _)

theorem readUses_bytes {pool : Pool} {visible : Bool} {uses : List AnnotationInfo}
    {values : List AnnotationUse}
    (known : uses.mapM (AnnotationInfo.use? pool visible) = some values)
    (bound : uses.length < 0x10000) (fits : ∀ use ∈ uses, use.Fits) :
    readUses pool visible (listBytes AnnotationInfo.bytes uses) = .ok values := by
  have whole :
      Reads (counted
        (readUse pool (readElement pool (listBytes AnnotationInfo.bytes uses).length) visible))
      (listBytes AnnotationInfo.bytes uses) values := by
    refine Reads.counted bound (forall₂_imp_mem (mapM_eq_some.mp known) ?_)
    intro info member value found
    simp only [AnnotationInfo.use?, Option.bind_eq_bind, Option.bind_eq_some_iff, Option.pure_def,
      Option.some.injEq] at found
    obtain ⟨name, named, elements, inner, rfl⟩ := found
    rw [AnnotationInfo.bytes, List.append_assoc]
    refine reads_use visible named inner (fits info member).1 ?_
    intro pair inside element known
    refine reads_element pool _ pair.2 element
      ((pairsFit_iff info.pairs).mp (fits info member).2 pair inside) known ?_
    have use := length_le_flatMap (f := AnnotationInfo.bytes) member
    have part := length_le_flatMap (f := pairBytes) inside
    simp only [AnnotationInfo.bytes, pairsBytes_eq, pairBytes, listBytes, List.length_append,
      length_bytesOf] at use part ⊢
    omega
  exact whole.parse_all

theorem reads_attribute {pool : Pool} {index : UInt16} {item : Attribute}
    (named : pool.text? index.toNat = some item.name) (bound : item.payload.length < 0x100000000) :
    Reads (do
      let name ← pool.utf8 (← u2)
      let payload ← block (← u4)
      return (⟨name, payload⟩ : Attribute))
      (bytesOf 2 index.toNat ++ (bytesOf 4 item.payload.length ++ item.payload)) item :=
  reads_text named ((Reads.number 4 _ bound).bind ((Reads.block item.payload).then_pure _))

theorem visibility?_annotations (visible : Bool) (payload : List UInt8) :
    Attribute.visibility? ⟨annotationAttribute visible, payload⟩ = some visible := by
  cases visible <;> simp [Attribute.visibility?, annotationAttribute]

theorem visibility?_other {name : String} (payload : List UInt8)
    (unknown : ∀ visible, name ≠ annotationAttribute visible) :
    Attribute.visibility? ⟨name, payload⟩ = none := by
  have notVisible := unknown true
  have notInvisible := unknown false
  simp only [annotationAttribute] at notVisible notInvisible
  simp [Attribute.visibility?, notVisible, notInvisible]

/-- How a step takes in attributes: facts replace those before them, annotations come after those
before them, and anything else is passed over. -/
structure TakesIn {α β γ : Type} (pool : Pool) (format : FactsFormat α β)
    (make : Option β → List AnnotationUse → γ)
    (add : γ → Attribute → Except FormatError γ) : Prop where
  facts : ∀ value result old uses, format.facts? pool value = some result →
    (format.bytes value).length < 0x100000000 →
    add (make old uses) ⟨format.name, format.bytes value⟩ = .ok (make (some result) uses)
  annotations : ∀ item visible more old uses, item.name ≠ format.name →
    item.visibility? = some visible → readUses pool visible item.payload = .ok more →
    add (make old uses) item = .ok (make old (uses ++ more))
  other : ∀ item old uses, item.name ≠ format.name → item.visibility? = none →
    add (make old uses) item = .ok (make old uses)

section Parts

variable {α β γ : Type} {pool : Pool} {format : FactsFormat α β} {make : Option β →
  List AnnotationUse → γ}
  {add : γ → Attribute → Except FormatError γ}

theorem TakesIn.part (takes : TakesIn pool format make add)
    (apart : ∀ visible, annotationAttribute visible ≠ format.name)
    {info : AttributeInfo α} {part : List AnnotationUse × Option β}
    (known : info.parts? format pool = some part)
    (fits : info.Fits format) :
    ∃ item : Attribute,
      (pool.text? info.name.toNat = some item.name ∧ item.payload = info.payload format) ∧
      ∀ old uses, add (make old uses) item = .ok (make (part.2.or old) (uses ++ part.1)) := by
  obtain ⟨index, content⟩ := info
  simp only [AttributeInfo.parts?, Option.bind_eq_bind, Option.bind_eq_some_iff] at known
  obtain ⟨name, named, known⟩ := known
  refine ⟨⟨name, _⟩, ⟨named, rfl⟩, ?_⟩
  intro old uses
  cases content with
  | facts value =>
    simp only [Option.ite_none_right_eq_some, Option.bind_eq_some_iff] at known
    obtain ⟨rfl, result, found, finish⟩ := known
    cases finish
    rw [List.append_nil]
    exact takes.facts value result old uses found fits.1
  | annotations visible infos =>
    simp only [Option.ite_none_right_eq_some, Option.bind_eq_some_iff] at known
    obtain ⟨rfl, more, found, finish⟩ := known
    cases finish
    exact takes.annotations _ visible more old uses (apart visible)
      (visibility?_annotations visible _)
      (readUses_bytes found fits.2.1 fits.2.2)
  | other payload =>
    simp only [Option.ite_none_left_eq_some] at known
    obtain ⟨unknown, finish⟩ := known
    cases finish
    rw [List.append_nil]
    simp only [List.mem_cons, List.not_mem_nil, or_false, not_or] at unknown
    refine takes.other _ old uses unknown.1 (visibility?_other _ ?_)
    intro visible
    cases visible
    · exact unknown.2.2
    · exact unknown.2.1

theorem lastFacts_cons (part : List AnnotationUse × Option β)
    (parts : List (List AnnotationUse × Option β)) :
    lastFacts (part :: parts) = (lastFacts parts).or part.2 := by
  obtain ⟨uses, facts⟩ := part
  cases facts with
  | none => simp [lastFacts]
  | some value => simp [lastFacts, List.getLast?_cons]

theorem foldlM_parts {items : List Attribute} {parts : List (List AnnotationUse × Option β)}
    (each : List.Forall₂ (fun item part => ∀ old uses,
      add (make old uses) item = .ok (make (part.2.or old) (uses ++ part.1))) items parts)
    (old : Option β) (uses : List AnnotationUse) :
    items.foldlM add (make old uses) =
    .ok (make ((lastFacts parts).or old) (uses ++ allUses parts)) := by
  induction each generalizing old uses with
  | nil => simp [lastFacts, allUses, pure, Except.pure]
  | cons first _ ih =>
    rw [List.foldlM_cons, first]
    change List.foldlM add (make _ _) _ = _
    rw [ih, lastFacts_cons, Option.or_assoc, List.append_assoc]
    rfl

theorem TakesIn.reads (takes : TakesIn pool format make add)
    (apart : ∀ visible, annotationAttribute visible ≠ format.name)
    {infos : List (AttributeInfo α)} {parts : List (List AnnotationUse × Option β)}
    (known : infos.mapM (AttributeInfo.parts? format pool) = some parts)
    (bound : infos.length < 0x10000) (fits : ∀ info ∈ infos, info.Fits format) :
    ∃ items, Reads (readAttributes pool) (listBytes (AttributeInfo.bytes format) infos) items ∧
      items.foldlM add (make none []) = .ok (make (lastFacts parts) (allUses parts)) := by
  obtain ⟨items, written, added⟩ :=
    exists_between_of_forall₂ (mapM_eq_some.mp known) fun info member part found =>
    takes.part apart found (fits info member)
  refine ⟨items, Reads.counted bound (forall₂_imp_mem written ?_), ?_⟩
  · rintro info member item ⟨named, payload⟩
    rw [AttributeInfo.bytes, List.append_assoc, ← payload]
    refine reads_attribute named ?_
    rw [payload]
    exact (fits info member).1
  · have total := foldlM_parts added none []
    rwa [Option.or_none, List.nil_append] at total

end Parts

theorem reads_body (info : CodeInfo) (bound : info.code.length < 0x100000000) :
    Reads readBody
      (bytesOf 2 info.maxStack.toNat ++
        (bytesOf 2 info.maxLocals.toNat ++ (bytesOf 4 info.code.length ++ info.code)))
      ⟨info.maxStack.toNat, info.maxLocals.toNat, info.code⟩ := by
  refine Reads.need (by simp only [List.length_append, length_bytesOf]; omega) ?_
  exact (Reads.u2 info.maxStack).bind ((Reads.u2 info.maxLocals).bind
    ((Reads.number 4 _ bound).bind ((Reads.block info.code).then_pure _)))

theorem methodFacts_takesIn (pool : Pool) :
    TakesIn pool codeFormat MethodFacts.mk (MethodFacts.add pool) where
  facts := by
    intro info result old uses found bound
    cases found
    have code : info.code.length < 0x100000000 := by
      simp only [codeFormat, List.length_append] at bound
      omega
    have read := (reads_body info code).parse info.tail
    simp only [List.append_assoc] at read
    simp [MethodFacts.add, codeFormat, read, bind, Except.bind, pure, Except.pure]
  annotations := by
    intro item visible more old uses apart visibility found
    simp only [codeFormat] at apart
    simp [MethodFacts.add, apart, visibility, found, bind, Except.bind, pure, Except.pure]
  other := by
    intro item old uses apart visibility
    simp only [codeFormat] at apart
    simp [MethodFacts.add, apart, visibility, pure, Except.pure]

theorem annotationAttribute_ne_code (visible : Bool) :
    annotationAttribute visible ≠ codeFormat.name := by
  cases visible <;> decide

theorem reads_method {pool : Pool} {info : MethodInfo} {method : CompiledMethod}
    (known : info.method? pool = some method) (fits : info.Fits) :
    Reads (readMethod pool) info.bytes method := by
  simp only [MethodInfo.method?, Option.bind_eq_bind, Option.bind_eq_some_iff, Option.pure_def,
    Option.some.injEq] at known
  obtain ⟨parts, found, name, named, descriptor, described, rfl⟩ := known
  obtain ⟨items, attributes, facts⟩ :=
    (methodFacts_takesIn pool).reads annotationAttribute_ne_code found fits.1 fits.2
  simp only [MethodInfo.bytes, List.append_assoc]
  refine Reads.need (by simp only [List.length_append, length_bytesOf]; omega) ?_
  refine (Reads.u2 info.access).bind
    ((Reads.u2 info.name).bind ((Reads.u2 info.descriptor).bind (attributes.last ?_)))
  exact Reads.lift_bind facts (Reads.lift_bind (Pool.utf8_eq_ok named)
    (Reads.lift_bind (Pool.utf8_eq_ok described) (Reads.pure _)))

theorem typeFacts_takesIn (pool : Pool) :
    TakesIn pool sourceFormat TypeFacts.mk (TypeFacts.add pool) where
  facts := by
    intro index result old uses found _
    have read : u2.parse (sourceFormat.bytes index) = .ok index.toNat := (Reads.u2 index).parse_all
    have text : pool.utf8 index.toNat = .ok result := Pool.utf8_eq_ok found
    simp [TypeFacts.add, sourceFormat] at read ⊢
    simp [read, text, bind, Except.bind]
  annotations := by
    intro item visible more old uses apart visibility found
    simp only [sourceFormat] at apart
    simp [TypeFacts.add, apart, visibility, found, bind, Except.bind, pure, Except.pure]
  other := by
    intro item old uses apart visibility
    simp only [sourceFormat] at apart
    simp [TypeFacts.add, apart, visibility, pure, Except.pure]

theorem annotationAttribute_ne_source (visible : Bool) :
    annotationAttribute visible ≠ sourceFormat.name := by
  cases visible <;> decide

theorem reads_header (path : String) (minor major : UInt16) :
    Reads (readHeader path)
    (bytesOf 4 0xCAFEBABE ++ (bytesOf 2 minor.toNat ++ bytesOf 2 major.toNat)) () := by
  refine Reads.need (by simp only [List.length_append, length_bytesOf]; omega) ?_
  refine (Reads.number 4 0xCAFEBABE (by decide)).bind ((Reads.bigEndian 4 _ ?_).last ?_)
  · simp only [List.length_append, length_bytesOf]
  · exact Reads.pure ()

theorem reads_field {pool : Pool} {info : FieldInfo} {names : List String}
    (named : info.attributes.mapM (fun item => pool.text? item.1.toNat) = some names)
    (fits : info.Fits) :
    Reads (skipField pool) info.bytes () := by
  obtain ⟨items, written, _⟩ := exists_between_of_forall₂
    (P := fun raw (item : Attribute) => pool.text? raw.1.toNat = some item.name ∧
      raw.2 = item.payload)
    (Q := fun item name => item.name = name) (mapM_eq_some.mp named)
    fun raw _ name found => ⟨⟨name, raw.2⟩, ⟨found, rfl⟩, rfl⟩
  have attributes : Reads (readAttributes pool)
      (listBytes (fun raw => bytesOf 2 raw.1.toNat ++ bytesOf 4 raw.2.length ++ raw.2)
        info.attributes) items := by
    refine Reads.counted fits.1 (forall₂_imp_mem written ?_)
    rintro raw member item ⟨found, payload⟩
    have bound := fits.2 raw member
    rw [List.append_assoc, payload]
    exact reads_attribute found (payload ▸ bound)
  refine (Reads.bigEndian 6 _ ?_).bind (attributes.then_pure _)
  simp only [List.length_append, length_bytesOf]

theorem reads_interfaces {pool : Pool} {indexes : List UInt16} {names : List String}
    (known : indexes.mapM (fun index => pool.class? index.toNat) = some names)
    (bound : indexes.length < 0x10000) :
    Reads (counted do return dotted (← pool.className (← u2)))
      (listBytes (fun index => bytesOf 2 index.toNat) indexes) (names.map dotted) := by
  refine Reads.counted bound (List.forall₂_map_right_iff.mpr ?_)
  refine (mapM_eq_some.mp known).imp ?_
  intro index name found
  exact (Reads.u2 index).last (Reads.lift_bind (Pool.className_eq_ok found) (Reads.pure _))

theorem reads_superName {α : Type} {info : TypeInfo} {superName : Option String}
    (known : info.superName? = some superName) {f : Option String → Reader α} {bytes : List UInt8}
    {value : α} (after : Reads (f superName) bytes value) :
    Reads (if info.super.toNat = 0 then pure none >>= f
      else (some <$> (liftM (info.pool.className info.super.toNat) : Reader String)) >>= f)
      bytes value := by
  rw [TypeInfo.superName?] at known
  have zero : info.super.toNat = 0 ↔ info.super = 0 := by
    rw [← UInt16.toNat_inj]
    rfl
  split at known
  case isTrue none =>
    cases known
    rw [if_pos (zero.mpr none)]
    exact (Reads.pure _).bind after
  case isFalse some =>
    obtain ⟨name, found, rfl⟩ := Option.map_eq_some_iff.mp known
    rw [if_neg (mt zero.mp some), map_eq_pure_bind, bind_assoc]
    exact Reads.lift_bind (Pool.className_eq_ok found) ((Reads.pure _).bind after)

theorem reads_type {path : String} {info : TypeInfo} {type : CompiledType}
    (known : info.type? path = some type) (fits : info.Fits) :
    Reads (readType path) info.bytes type := by
  simp only [TypeInfo.type?, Option.bind_eq_bind, Option.bind_eq_some_iff, Option.pure_def,
    Option.some.injEq] at known
  obtain ⟨name, named, superName, above, interfaces, implemented, fieldNames, fieldsNamed,
    methods, methodsKnown, parts, found, rfl⟩ := known
  obtain ⟨items, attributes, facts⟩ :=
    (typeFacts_takesIn info.pool).reads annotationAttribute_ne_source found fits.attributes
      fits.eachAttribute
  have fields : Reads (counted (skipField info.pool)) (listBytes FieldInfo.bytes info.fields)
      (fieldNames.map fun _ => ()) := by
    refine Reads.counted fits.fields (List.forall₂_map_right_iff.mpr ?_)
    refine forall₂_imp_mem (mapM_eq_some.mp fieldsNamed) ?_
    intro field member names namesKnown
    exact reads_field namesKnown (fits.eachField field member)
  have members :
      Reads (counted (readMethod info.pool)) (listBytes MethodInfo.bytes info.methods) methods := by
    refine Reads.counted fits.methods (forall₂_imp_mem (mapM_eq_some.mp methodsKnown) ?_)
    intro method member denoted methodKnown
    exact reads_method methodKnown (fits.eachMethod method member)
  have pool := reads_pool info.constants fits.constants fits.pool
  have layout : info.bytes =
      (bytesOf 4 0xCAFEBABE ++ (bytesOf 2 info.minor.toNat ++ bytesOf 2 info.major.toNat)) ++
      ((bytesOf 2 info.pool.size ++ info.constants.flatMap ConstantInfo.bytes) ++
      (bytesOf 2 info.access.toNat ++ (bytesOf 2 info.this.toNat ++ (bytesOf 2 info.super.toNat ++
      (listBytes (fun index => bytesOf 2 index.toNat) info.interfaces ++
      (listBytes FieldInfo.bytes info.fields ++ (listBytes MethodInfo.bytes info.methods ++
      listBytes (AttributeInfo.bytes sourceFormat) info.attributes))))))) := by
    simp only [TypeInfo.bytes, List.append_assoc]
  rw [layout]
  refine (reads_header path info.minor info.major).bind (pool.bind (Reads.need ?_ ?_))
  · simp only [List.length_append, length_bytesOf]
    omega
  refine (Reads.u2 info.access).bind ((Reads.u2 info.this).bind ((Reads.u2 info.super).bind ?_))
  refine (reads_interfaces implemented fits.interfaces).bind
    (fields.bind (members.bind (attributes.last ?_)))
  exact Reads.lift_bind facts
    (Reads.lift_bind (Pool.className_eq_ok named) (reads_superName above (Reads.pure _)))

/-- Reading undoes writing: of the bytes of a description, with any bytes after them, parsing gives
the type that the description stands for. -/
theorem parse_bytes_append (info : TypeInfo) (path : String) (type : CompiledType)
    (known : info.type? path = some type) (fits : info.Fits) (rest : List UInt8) :
    CompiledType.parse (info.bytes ++ rest) path = .ok type :=
  (reads_type known fits).parse rest

/-- A type whose pool starts with a long constant, with an annotation in an annotation, an element
given twice and attributes of unknown names around the code of its method. -/
def nestedInfo : TypeInfo where
  minor := 0
  major := 52
  constants :=
    [.long (-5), .utf8 (textUnits "a/B"), .classRef 3, .utf8 (textUnits "m"),
      .utf8 (textUnits "()V"), .utf8 (textUnits "Code"),
      .utf8 (textUnits "RuntimeVisibleAnnotations"), .utf8 (textUnits "La/X;"),
    .utf8 (textUnits "v"), .utf8 (textUnits "Other"), .utf8 (textUnits "SourceFile"),
    .utf8 (textUnits "B.java"), .integer 65, .single 0x3FC00000, .double 0xC000000000000000]
  access := 0x21
  this := 4
  super := 0
  interfaces := [4, 4]
  fields := [⟨1, 10, 6, [(11, [0xCA, 0xFE])]⟩]
  methods := [⟨1, 5, 6, [
    ⟨8, .annotations true [⟨9, [(10, .constant .char 14), (5, .constant .float 15),
      (10, .array [.constant .long 1, .constant .double 16,
        .nested 9 [(10, .constant .char 14)]])]⟩]⟩,
    ⟨11, .other [7]⟩,
    ⟨7, .facts ⟨2, 1, [0xB1], [0, 0, 0, 0]⟩⟩]⟩]
  attributes := [⟨11, .other []⟩, ⟨12, .facts 13⟩]

def nestedType : CompiledType where
  name := "a.B"
  path := "B.class"
  access := 0x21
  superName := none
  interfaces := ["a.B", "a.B"]
  methods := [{
    name := "m", descriptor := "()V", access := 1
    annotations := [⟨"a.X", [
      ("v", .array [.int (-5), .float ⟨0xC000000000000000⟩, .nested "a.X" [("v", .char 65)] true]),
      ("m", .float ⟨0x3FF8000000000000⟩)], true⟩]
    code := some [0xB1], maxStack := 2, maxLocals := 1 }]
  sourceFile := some "B.java"
  pool := nestedInfo.pool

theorem nestedInfo_fits : nestedInfo.Fits where
  pool := by decide
  constants := by
    simp only [nestedInfo, List.forall_mem_cons, List.not_mem_nil, false_imp_iff, implies_true,
      ConstantInfo.Fits, and_true, true_and]
    decide
  interfaces := by decide
  fields := by decide
  eachField := by
    simp only [nestedInfo, List.forall_mem_singleton, FieldInfo.Fits]
    decide
  methods := by decide
  eachMethod := by
    simp only [nestedInfo, List.forall_mem_cons, List.not_mem_nil, false_imp_iff, implies_true,
      MethodInfo.Fits, AttributeInfo.Fits, AnnotationInfo.Fits, PairsFit, ItemsFit,
      ElementInfo.Fits, and_true, true_and]
    decide
  attributes := by decide
  eachAttribute := by
    simp only [nestedInfo, List.forall_mem_cons, List.not_mem_nil, false_imp_iff, implies_true,
      AttributeInfo.Fits, and_true]
    decide

theorem parse_nestedInfo_append :
    nestedInfo.type? "B.class" = some nestedType ∧
      CompiledType.parse (nestedInfo.bytes ++ [0xCA, 0xFE]) "B.class" = .ok nestedType :=
  ⟨rfl, parse_bytes_append nestedInfo "B.class" nestedType rfl nestedInfo_fits [0xCA, 0xFE]⟩

end CallAtlas.ClassFile
