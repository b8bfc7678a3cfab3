import CallAtlas.Proofs.OutlineAddresses
import CallAtlas.Proofs.Tables

/-! Indexing as a walk: the nodes that it comes to, and what each of them adds to the index. -/

namespace CallAtlas.Java

/-- A node that indexing comes to, with the names of the types around it, the outermost first. -/
structure Visit where
  address : Address
  types : List String
  node : Node

mutual

def visits (address : Address) (types : List String) : Node → List Visit
  | .mk kind span children =>
    ⟨address, types, .mk kind span children⟩ ::
      if kind.hides then [] else visitsOf address (types ++ kind.typeName?.toList) 0 children

def visitsOf (address : Address) (types : List String) (i : Nat) : List Node → List Visit
  | [] => []
  | node :: rest => visits (address ++ [i]) types node ++ visitsOf address types (i + 1) rest

end

namespace Visit

def owner? (package : Option String) (visit : Visit) : Option String :=
  if visit.types.isEmpty then none else some (nestedName package visit.types)

def declared? (package : Option String) (visit : Visit) : Option SourceType :=
  visit.node.kind.typeName?.map fun name =>
    .ofSpan package (visit.types ++ [name]) name visit.node.span

def declares (package : Option String) (name : String) (visit : Visit) : Bool :=
  (visit.declared? package).any fun type => type.binaryName = name

def method? (visit : Visit) : Option SourceMethod :=
  match visit.node.kind with
  | .method sketch => some (.ofSketch sketch visit.node.span)
  | _ => none

def foreign (visit : Visit) : List Segment :=
  match visit.node.kind with
  | .type _ => [visit.node.segment]
  | .method _ | .creation | .constant => innerSegmentsOf visit.node.children
  | .classBody | .other => []

def addTo (type : SourceType) (visit : Visit) : SourceType :=
  (match visit.method? with
    | some method => type.addMethod method
    | none => type).addForeign visit.foreign

def enter (package : Option String) (index : FileIndex) (visit : Visit) : FileIndex :=
  let index := match visit.owner? package with
    | some name => index.update name (addTo · visit)
    | none => index
  match visit.declared? package with
  | some type => index.declare type
  | none => index

end Visit

theorem FileIndex.update_id (index : FileIndex) (name : String) {change : SourceType → SourceType}
    (same : ∀ type, change type = type) : index.update name change = index := by
  simp [FileIndex.update, same]

theorem indexNode_eq_enter (package : Option String) (address : Address) (types : List String)
    (kind : NodeKind) (span : Span) (children : List Node) (index : FileIndex) :
    indexNode package types (.mk kind span children) index =
      let entered := Visit.enter package index ⟨address, types, .mk kind span children⟩
      if kind.hides then entered
        else indexNodes package (types ++ kind.typeName?.toList) children entered := by
  unfold indexNode
  cases kind with
  | type | method | creation | constant => cases types <;> rfl
  | classBody | other =>
    have same : types ++ [] = types := List.append_nil types
    cases types with
    | nil => rfl
    | cons outer inner =>
      have unchanged (type : SourceType) :
          type.addForeign [] = type := by simp [SourceType.addForeign]
      have update := FileIndex.update_id index (nestedName package (outer :: inner)) unchanged
      exact congr (congrArg (indexNodes package · children) same.symm) update.symm

mutual

/-- Indexing enters the nodes that it comes to, one after the other. -/
theorem indexNode_eq_foldl (package : Option String) (address : Address) :
    ∀ (node : Node) (types : List String) (index : FileIndex),
      indexNode package types node index =
      (visits address types node).foldl (Visit.enter package) index
  | .mk kind span children, types, index => by
    rw [indexNode_eq_enter package address, visits, List.foldl_cons]
    cases kind.hides with
    | true => rfl
    | false => exact indexNodes_eq_foldl package address 0 children _ _

theorem indexNodes_eq_foldl (package : Option String) (address : Address)
    (i : Nat) : ∀ (nodes : List Node) (types : List String) (index : FileIndex),
    indexNodes package types nodes index =
    (visitsOf address types i nodes).foldl (Visit.enter package) index
  | [], _, _ => rfl
  | node :: rest, types, index => by
    rw [indexNodes, visitsOf, List.foldl_append, indexNode_eq_foldl package (address ++ [i]) node,
      indexNodes_eq_foldl package address (i + 1) rest]

end

mutual

theorem mem_visits (address : Address) : ∀ (node : Node) (types : List String) (visit : Visit),
    visit ∈ visits address types node ↔ ∃ below, visit.address = address ++ below ∧
      node.at? below = some visit.node ∧ node.Open below ∧
      visit.types = types ++ typeNames (node.above below)
  | .mk kind span children, types, visit => by
    rw [visits, List.mem_cons]
    constructor
    · rintro (rfl | deeper)
      · exact ⟨[], (List.append_nil _).symm, rfl, Node.open_nil _, (List.append_nil _).symm⟩
      · split at deeper
        · cases deeper
        · rename_i shows
          obtain ⟨j, child, below, isChild, address', found, isOpen, types'⟩ :=
            (mem_visitsOf address 0 children _ visit).mp deeper
          rw [Nat.zero_add] at address'
          refine ⟨j :: below, address', Node.at?_cons_eq_some.mpr ⟨child, isChild, found⟩,
            (Node.open_cons isChild).mpr ⟨Bool.not_eq_true _ ▸ shows, isOpen⟩, ?_⟩
          rw [Node.above_cons isChild, typeNames_cons, types', List.append_assoc]
          rfl
    · rintro ⟨below, address', found, isOpen, types'⟩
      cases below with
      | nil =>
        obtain ⟨_, _, _⟩ := visit
        cases found
        cases address'.trans (List.append_nil _)
        cases types'.trans (List.append_nil _)
        exact .inl rfl
      | cons j below =>
        obtain ⟨child, isChild, found⟩ := Node.at?_cons_eq_some.mp found
        obtain ⟨shows, isOpen⟩ := (Node.open_cons isChild).mp isOpen
        rw [Node.above_cons isChild, typeNames_cons, ← List.append_assoc] at types'
        refine .inr ?_
        rw [if_neg (by rw [show kind.hides = false from shows]; exact Bool.false_ne_true)]
        refine (mem_visitsOf address 0 children _ visit).mpr
          ⟨j, child, below, isChild, ?_, found, isOpen, types'⟩
        rw [Nat.zero_add, address']

theorem mem_visitsOf (address : Address) (i : Nat) :
    ∀ (nodes : List Node) (types : List String) (visit : Visit),
      visit ∈ visitsOf address types i nodes ↔
      ∃ j child below, nodes[j]? = some child ∧ visit.address = address ++ (i + j) :: below ∧
      child.at? below = some visit.node ∧ child.Open below ∧
        visit.types = types ++ typeNames (child.above below)
  | [], _, _ => by simp [visitsOf]
  | node :: rest, types, visit => by
    rw [visitsOf, List.mem_append, mem_visits (address ++ [i]) node,
      mem_visitsOf address (i + 1) rest]
    constructor
    · rintro (⟨below, address', found⟩ | ⟨j, child, below, isChild, address', found⟩)
      · refine ⟨0, node, below, rfl, ?_, found⟩
        rw [address', List.append_assoc]
        rfl
      · refine ⟨j + 1, child, below, isChild, ?_, found⟩
        rw [address', Nat.add_assoc, Nat.add_comm 1 j]
    · rintro ⟨j, child, below, isChild, address', found⟩
      cases j with
      | zero =>
        cases isChild
        refine .inl ⟨below, ?_, found⟩
        rw [address', List.append_assoc]
        rfl
      | succ j =>
        refine .inr ⟨j, child, below, isChild, ?_, found⟩
        rw [address', Nat.add_assoc, Nat.add_comm 1 j]

end

mutual

theorem visits_ordered (address : Address) : ∀ (node : Node) (types : List String),
    (visits address types node).Pairwise fun first second =>
      Address.Before first.address second.address
  | .mk kind span children, types => by
    rw [visits]
    split
    · exact List.pairwise_singleton _ _
    · refine .cons ?_ (visitsOf_ordered address 0 children _)
      intro visit member
      obtain ⟨j, _, below, _, address', _⟩ := (mem_visitsOf address 0 children _ visit).mp member
      rw [address']
      exact Address.Before.append address (0 + j) below

theorem visitsOf_ordered (address : Address) (i : Nat) :
    ∀ (nodes : List Node) (types : List String),
      (visitsOf address types i nodes).Pairwise fun first second =>
      Address.Before first.address second.address
  | [], _ => .nil
  | node :: rest, types => by
    rw [visitsOf, List.pairwise_append]
    refine ⟨visits_ordered (address ++ [i]) node types,
      visitsOf_ordered address (i + 1) rest types, ?_⟩
    intro first isFirst second isSecond
    obtain ⟨below, address', _⟩ := (mem_visits _ node types first).mp isFirst
    obtain ⟨j, _, below', _, address'', _⟩ :=
      (mem_visitsOf address (i + 1) rest types second).mp isSecond
    rw [address', address'', List.append_assoc]
    exact Address.Before.below (.rel (by omega)) address

end

namespace FileIndex

theorem get?_update (index : FileIndex) (name key : String) (change : SourceType → SourceType) :
    (index.update name change).get? key = if name = key then (index.get? key).map change
      else index.get? key := by
  induction index with
  | nil => simp [update, Table.get?]
  | cons entry rest ih =>
    obtain ⟨first, type⟩ := entry
    rw [update, List.map_cons, ← update]
    by_cases here : first = name <;> by_cases same : first = key
    · subst here same
      simp [Table.get?]
    · subst here
      simp only [↓reduceIte, Table.get?, same, ih]
    · subst same
      simp [Table.get?, here, Ne.symm here]
    · simp only [here, ↓reduceIte, Table.get?, same, ih]

theorem get?_append_singleton (index : FileIndex) (name key : String) (type : SourceType) :
    Table.get? key (index ++ [(name, type)]) =
    (index.get? key).or (if name = key then some type else none) := by
  induction index with
  | nil => rfl
  | cons entry rest ih =>
    rw [List.cons_append, Table.get?, Table.get?, ih]
    split <;> rfl

theorem get?_declare (index : FileIndex) (type : SourceType) (key : String) :
    (index.declare type).get? key =
    (index.get? key).or (if type.binaryName = key then some type else none) := by
  unfold declare
  split
  · rename_i old present
    by_cases same : type.binaryName = key
    · subst same
      rw [present]
      rfl
    · simp [same]
  · exact get?_append_singleton index type.binaryName key type

end FileIndex

namespace Visit

variable {package : Option String} {name : String}

/-- One step: the entry of a name gets what a node of that type adds, or is made by the declaration
of the type. -/
theorem get?_enter (index : FileIndex) (visit : Visit) :
    (visit.enter package index).get? name =
      (if visit.owner? package = some name then (index.get? name).map (addTo · visit)
        else index.get? name).or
        ((visit.declared? package).filter fun type => type.binaryName = name) := by
  have owned : (match visit.owner? package with
      | some name => index.update name (addTo · visit)
      | none => index).get? name =
        if visit.owner? package = some name then (index.get? name).map (addTo · visit)
          else index.get? name := by
    cases visit.owner? package with
    | none => simp
    | some owner => simp [FileIndex.get?_update]
  unfold enter
  cases visit.declared? package with
  | none => simp [owned]
  | some type =>
    rw [← owned]
    simp only [FileIndex.get?_declare, Option.filter_some, decide_eq_true_eq]

theorem get?_foldl_enter_of_some {index : FileIndex} {type : SourceType}
    (present : index.get? name = some type) (visits : List Visit) :
    (visits.foldl (enter package) index).get? name =
      some ((visits.filter fun visit => visit.owner? package = some name).foldl addTo type) := by
  induction visits generalizing index type with
  | nil => exact present
  | cons visit rest ih =>
    rw [List.foldl_cons]
    by_cases owned : visit.owner? package = some name
    · have step : (visit.enter package index).get? name = some (addTo type visit) := by
        rw [get?_enter, if_pos owned, present]
        rfl
      rw [ih step, List.filter_cons_of_pos (by simpa using owned), List.foldl_cons]
    · have step : (visit.enter package index).get? name = some type := by
        rw [get?_enter, if_neg owned, present]
        rfl
      rw [ih step, List.filter_cons_of_neg (by simpa using owned)]

theorem get?_foldl_enter_of_none {index : FileIndex} (absent : index.get? name = none)
    {visits : List Visit} (undeclared : ∀ visit ∈ visits, visit.declares package name = false) :
    (visits.foldl (enter package) index).get? name = none := by
  induction visits generalizing index with
  | nil => exact absent
  | cons visit rest ih =>
    rw [List.forall_mem_cons] at undeclared
    refine ih ?_ undeclared.2
    have other : (visit.declared? package).filter (fun type => type.binaryName = name) = none := by
      rw [Option.filter_eq_none_iff]
      exact fun type declared same => by simp_all [declares]
    rw [get?_enter, absent, other]
    simp

theorem addTo_span (type : SourceType) (visit : Visit) :
    (addTo type visit).start = type.start ∧ (addTo type visit).stop = type.stop := by
  unfold addTo
  split <;> exact ⟨rfl, rfl⟩

theorem addTo_foreign (type : SourceType) (visit : Visit) :
    (addTo type visit).foreign = type.foreign ++ visit.foreign := by
  unfold addTo
  split <;> rfl

theorem get?_addTo_methods (type : SourceType) (visit : Visit) (method : String) :
    (addTo type visit).methods.get? method =
      match visit.method? with
      | some found =>
        if found.name = method then some ((type.methods.get? method).getD [] ++ [found])
        else type.methods.get? method
      | none => type.methods.get? method := by
  unfold addTo
  cases visit.method? with
  | none => rfl
  | some found =>
    simp only [SourceType.addForeign, SourceType.addMethod, Table.get?_modify]
    split
    · rename_i same
      rw [same]
    · rfl

theorem foldl_addTo_span (type : SourceType) (visits : List Visit) :
    (visits.foldl addTo type).start = type.start ∧ (visits.foldl addTo type).stop = type.stop := by
  induction visits generalizing type with
  | nil => exact ⟨rfl, rfl⟩
  | cons visit rest ih =>
    obtain ⟨start, stop⟩ := ih (addTo type visit)
    obtain ⟨start', stop'⟩ := addTo_span type visit
    exact ⟨start.trans start', stop.trans stop'⟩

theorem foldl_addTo_foreign (type : SourceType) (visits : List Visit) :
    (visits.foldl addTo type).foreign = type.foreign ++ visits.flatMap foreign := by
  induction visits generalizing type with
  | nil => exact (List.append_nil _).symm
  | cons visit rest ih =>
    rw [List.foldl_cons, ih, addTo_foreign, List.flatMap_cons, List.append_assoc]

theorem foldl_addTo_methods (type : SourceType) (visits : List Visit) (method : String) :
    ((visits.foldl addTo type).methods.get? method).getD [] =
      (type.methods.get? method).getD [] ++ (visits.filterMap method?).filter fun found =>
        found.name = method := by
  induction visits generalizing type with
  | nil => exact (List.append_nil _).symm
  | cons visit rest ih =>
    rw [List.foldl_cons, ih, get?_addTo_methods, List.filterMap_cons]
    cases visit.method? with
    | none => rfl
    | some found =>
      by_cases same : found.name = method
      · simp [same]
      · simp [same]

theorem foldl_addTo_methods_ne_nil {type : SourceType} {method : String}
    (listed : type.methods.get? method ≠ some [])
    (visits : List Visit) : (visits.foldl addTo type).methods.get? method ≠ some [] := by
  induction visits generalizing type with
  | nil => exact listed
  | cons visit rest ih =>
    apply ih
    rw [get?_addTo_methods]
    cases visit.method? with
    | none => exact listed
    | some found =>
      by_cases same : found.name = method
      · simp [same]
      · simpa [same] using listed

end Visit

section Index

variable {package : Option String} {root : Node} {name : String}

theorem mem_visits_root {visit : Visit} :
    visit ∈ visits [] [] root ↔ root.at? visit.address = some visit.node ∧ root.Open visit.address ∧
      visit.types = typeNames (root.above visit.address) := by
  rw [mem_visits]
  constructor
  · rintro ⟨below, same, here⟩
    rw [same]
    exact here
  · intro here
    exact ⟨visit.address, rfl, here⟩

theorem Visit.owner?_eq_some {visit : Visit} :
    visit.owner? package = some name ↔ visit.types ≠ [] ∧
    nestedName package visit.types = name := by
  unfold owner?
  cases visit.types <;> simp

theorem Visit.declared?_eq_some {visit : Visit} {type : SourceType} :
    visit.declared? package = some type ↔ ∃ simple, visit.node.kind = .type simple ∧
      type = .ofSpan package (visit.types ++ [simple]) simple visit.node.span := by
  rw [declared?, Option.map_eq_some_iff]
  exact exists_congr fun _ => and_congr NodeKind.typeName?_eq_some eq_comm

theorem Visit.declares_iff {visit : Visit} :
    visit.declares package name = true ↔ ∃ simple, visit.node.kind = .type simple ∧
      nestedName package (visit.types ++ [simple]) = name := by
  simp only [declares, Option.any_eq_true, declared?_eq_some, decide_eq_true_eq]
  constructor
  · rintro ⟨_, ⟨simple, isType, rfl⟩, same⟩
    exact ⟨simple, isType, same⟩
  · rintro ⟨simple, isType, same⟩
    exact ⟨_, ⟨simple, isType, rfl⟩, same⟩

theorem exists_declares_before {visit : Visit} (member : visit ∈ visits [] [] root)
    (owned : visit.owner? package = some name) :
    ∃ earlier ∈ visits [] [] root, earlier.declares package name = true ∧
      Address.Before earlier.address visit.address := by
  obtain ⟨here, isOpen, types⟩ := mem_visits_root.mp member
  obtain ⟨inside, isName⟩ := Visit.owner?_eq_some.mp owned
  rw [types] at inside isName
  obtain ⟨outer, rest, type, simple, address, nonempty, atOuter, isType, openOuter, names⟩ :=
    Node.exists_type_above here isOpen inside
  refine ⟨⟨outer, typeNames (root.above outer), type⟩,
    mem_visits_root.mpr ⟨atOuter, openOuter, rfl⟩,
    Visit.declares_iff.mpr ⟨simple, isType, names ▸ isName⟩, ?_⟩
  obtain ⟨i, rest, rfl⟩ := List.exists_cons_of_ne_nil nonempty
  rw [address]
  exact Address.Before.append outer i rest

theorem owner?_ne_of_first {earlier later : List Visit} {first : Visit}
    (split : visits [] [] root = earlier ++ first :: later)
    (undeclared : ∀ visit ∈ earlier, visit.declares package name = false) {visit : Visit}
    (upTo : visit ∈ earlier ++ [first]) : visit.owner? package ≠ some name := by
  intro owned
  have ordered := visits_ordered [] root []
  rw [split, List.pairwise_append, List.pairwise_cons] at ordered
  obtain ⟨_, ⟨afterFirst, _⟩, across⟩ := ordered
  have present : visit ∈ visits [] [] root := by
    rw [split, List.append_cons]
    exact List.mem_append_left later upTo
  obtain ⟨above, isVisit, declares, before⟩ := exists_declares_before present owned
  have least : above = first ∨ Address.Before first.address above.address := by
    rw [split, List.mem_append, List.mem_cons] at isVisit
    rcases isVisit with early | same | late
    · exact absurd declares (by rw [undeclared above early]; exact Bool.false_ne_true)
    · exact .inl same
    · exact .inr (afterFirst above late)
  have most : visit = first ∨ Address.Before visit.address first.address := by
    rw [List.mem_append, List.mem_singleton] at upTo
    rcases upTo with early | same
    · exact .inr (across visit early first List.mem_cons_self)
    · exact .inl same
  rcases least with rfl | least <;> rcases most with rfl | most
  · exact before.irrefl
  · exact (before.trans most).irrefl
  · exact (least.trans before).irrefl
  · exact ((least.trans before).trans most).irrefl

/-- The entry of a name is made where the name is first declared, and gets what all nodes of that
type add. -/
theorem get?_indexNode {first : Visit} {type : SourceType}
    (found : (visits [] [] root).find? (·.declares package name) = some first)
    (new : first.declared? package = some type) :
    (indexNode package [] root []).get? name = some
      (((visits [] [] root).filter fun visit => visit.owner? package = some name).foldl
        Visit.addTo type) := by
  obtain ⟨declares, earlier, later, split, others⟩ := List.find?_eq_some_iff_append.mp found
  have undeclared : ∀ visit ∈ earlier, visit.declares package name = false := by simpa using others
  have isName : type.binaryName = name := by
    simpa [Visit.declares, new] using declares
  have before : (earlier.foldl (Visit.enter package) []).get? name = none :=
    Visit.get?_foldl_enter_of_none rfl undeclared
  have made : (first.enter package (earlier.foldl (Visit.enter package) [])).get? name =
      some type := by
    rw [Visit.get?_enter, before, new]
    simp [isName]
  have none : (earlier ++ [first]).filter (fun visit => visit.owner? package = some name) = [] := by
    rw [List.filter_eq_nil_iff]
    intro visit member owned
    exact owner?_ne_of_first split undeclared member (of_decide_eq_true owned)
  rw [indexNode_eq_foldl package [], split, List.foldl_append, List.foldl_cons,
    Visit.get?_foldl_enter_of_some made, List.append_cons, List.filter_append, none,
    List.nil_append]

theorem get?_indexNode_eq_none
    (undeclared : (visits [] [] root).find? (·.declares package name) = none) :
    (indexNode package [] root []).get? name = none := by
  rw [indexNode_eq_foldl package []]
  apply Visit.get?_foldl_enter_of_none rfl
  simpa using undeclared

end Index

end CallAtlas.Java
