import CallAtlas.Proofs.IndexVisits
import CallAtlas.Proofs.SyntaxTrees
import Mathlib.Data.List.Forall2

/-!
Which methods and which text the index gives to a type. The methods are those whose enclosing types
spell the name of the type; the text is what the first declaration of the type encloses more closely
than any other type or anonymous class.
-/

namespace CallAtlas.Java

/-- A type with the binary name `name` is declared at an address. -/
def DeclaredAt (package : Option String) (root : Node) (name : String) (address : Address) : Prop :=
  ∃ node simple, root.at? address = some node ∧ node.kind = .type simple ∧ root.Open address ∧
    nestedName package (typeNames (root.above address) ++ [simple]) = name

def MethodAt (package : Option String) (root : Node) (name : String) (method : SourceMethod)
    (address : Address) :
    Prop :=
  ∃ node sketch, root.at? address = some node ∧ node.kind = .method sketch ∧ root.Open address ∧
    typeNames (root.above address) ≠ [] ∧
    nestedName package (typeNames (root.above address)) = name ∧
      method = .ofSketch sketch node.span

def Node.Precedes (root : Node) (first second : Address) : Prop :=
  Address.Before first second ∧ ∃ x y, root.at? first = some x ∧ root.at? second = some y ∧
    x.span.stop ≤ y.span.start.byte

/-- The methods that a type has under one name, each once and in the order of the text. -/
def ListsMethods (package : Option String) (root : Node) (name method : String)
    (methods : List SourceMethod) : Prop :=
  ∃ addresses : List Address, addresses.Pairwise root.Precedes ∧
    (∀ address, address ∈ addresses ↔ ∃ found, MethodAt package root name found address ∧
      found.name = method) ∧ List.Forall₂ (MethodAt package root name) methods addresses

/-- Types, and the bodies of anonymous classes in methods, creations and enum constants. -/
def Delimits (root : Node) (address : Address) : Prop :=
  ∃ node, root.at? address = some node ∧
    ((∃ name, node.kind = .type name) ∨ node.kind = .classBody ∧
      ∃ kind ∈ root.above address, kind.hides = true)

def Around (root : Node) (byte : Nat) (address : Address) : Prop :=
  ∃ node, root.at? address = some node ∧ node.segment.holds byte = true

/-- Of the types and anonymous classes around a byte, the one at `address` is the innermost. -/
def Innermost (root : Node) (byte : Nat) (address : Address) : Prop :=
  Delimits root address ∧ Around root byte address ∧
    ∀ other, Delimits root other → Around root byte other → other <+: address

def NodeKind.isBody : NodeKind → Bool
  | type _ | classBody => true
  | _ => false

theorem mem_innerSegmentsOf {nodes : List Node} {segment : Segment} :
    segment ∈ innerSegmentsOf nodes ↔ ∃ node ∈ nodes,
      (node.kind.isBody = true ∧ segment = node.segment) ∨
        (node.kind.isBody = false ∧ segment ∈ innerSegmentsOf node.children) := by
  induction nodes with
  | nil => simp [innerSegmentsOf]
  | cons node rest ih =>
    obtain ⟨kind, span, children⟩ := node
    rw [innerSegmentsOf, List.exists_mem_cons_iff, ← ih]
    cases kind <;>
      simp [Node.kind, NodeKind.isBody, Node.children, innerSegments]

mutual

theorem exists_body_of_mem :
    ∀ {node : Node} {segment : Segment}, segment ∈ innerSegmentsOf node.children →
      ∃ below found, below ≠ [] ∧ node.at? below = some found ∧ found.kind.isBody = true ∧
      segment = found.segment
  | .mk _ _ children, _, member => by
    obtain ⟨i, child, below, found, isChild, here, isBody, same⟩ := exists_body_of_mem_list member
    exact ⟨i :: below, found, List.cons_ne_nil _ _,
      Node.at?_cons_eq_some.mpr ⟨child, isChild, here⟩, isBody, same⟩

theorem exists_body_of_mem_list :
    ∀ {nodes : List Node} {segment : Segment}, segment ∈ innerSegmentsOf nodes →
    ∃ (i : Nat) (child : Node) (below : Address) (found : Node), nodes[i]? = some child ∧
      child.at? below = some found ∧ found.kind.isBody = true ∧ segment = found.segment
  | [], _, member => nomatch member
  | node :: rest, segment, member => by
    rw [mem_innerSegmentsOf, List.exists_mem_cons_iff] at member
    rcases member with (⟨isBody, same⟩ | ⟨_, deeper⟩) | later
    · exact ⟨0, node, [], node, rfl, rfl, isBody, same⟩
    · obtain ⟨below, found, _, here, isBody, same⟩ := exists_body_of_mem deeper
      exact ⟨0, node, below, found, rfl, here, isBody, same⟩
    · obtain ⟨i, child, below, found, isChild, here⟩ :=
        exists_body_of_mem_list (mem_innerSegmentsOf.mpr later)
      exact ⟨i + 1, child, below, found, isChild, here⟩

end

theorem exists_mem_of_body {node found : Node} {below : Address}
    (here : node.at? below = some found) (deeper : below ≠ []) (isBody : found.kind.isBody = true) :
    ∃ upper rest outer, below = upper ++ rest ∧ node.at? upper = some outer ∧
      outer.segment ∈ innerSegmentsOf node.children := by
  induction below generalizing node with
  | nil => exact absurd rfl deeper
  | cons i below ih =>
    obtain ⟨child, isChild, here⟩ := Node.at?_cons_eq_some.mp here
    have member : child ∈ node.children := List.mem_of_getElem? isChild
    cases outermost : child.kind.isBody with
    | true =>
      refine ⟨[i], below, child, rfl, Node.at?_cons_eq_some.mpr ⟨child, isChild, rfl⟩, ?_⟩
      exact mem_innerSegmentsOf.mpr ⟨child, member, .inl ⟨outermost, rfl⟩⟩
    | false =>
      have deeper' : below ≠ [] := by
        rintro rfl
        cases here
        rw [outermost] at isBody
        cases isBody
      obtain ⟨upper, rest, outer, rfl, atUpper, listed⟩ := ih here deeper'
      refine ⟨i :: upper, rest, outer, rfl, Node.at?_cons_eq_some.mpr ⟨child, isChild, atUpper⟩, ?_⟩
      exact mem_innerSegmentsOf.mpr ⟨child, member, .inr ⟨outermost, listed⟩⟩

section Attribution

variable {package : Option String} {root : Node} {name : String}

theorem declaredAt_iff {address : Address} : DeclaredAt package root name address ↔
    ∃ visit ∈ visits [] [] root, visit.address = address ∧ visit.declares package name = true := by
  constructor
  · rintro ⟨node, simple, here, isType, isOpen, isName⟩
    exact ⟨⟨address, _, node⟩, mem_visits_root.mpr ⟨here, isOpen, rfl⟩, rfl,
      Visit.declares_iff.mpr ⟨simple, isType, isName⟩⟩
  · rintro ⟨visit, member, rfl, declares⟩
    obtain ⟨here, isOpen, types⟩ := mem_visits_root.mp member
    obtain ⟨simple, isType, isName⟩ := Visit.declares_iff.mp declares
    exact ⟨visit.node, simple, here, isType, isOpen, types ▸ isName⟩

theorem Visit.method?_eq_some {visit : Visit} {method : SourceMethod} :
    visit.method? = some method ↔ ∃ sketch, visit.node.kind = .method sketch ∧
    method = .ofSketch sketch visit.node.span := by
  unfold method?
  cases visit.node.kind <;> simp [eq_comm]

theorem methodAt_iff {method : SourceMethod} {address : Address} :
    MethodAt package root name method address ↔ ∃ visit ∈ visits []
    [] root, visit.address = address ∧ visit.owner? package = some name ∧
      visit.method? = some method := by
  constructor
  · rintro ⟨node, sketch, here, isMethod, isOpen, inside, isName, same⟩
    exact ⟨⟨address, _, node⟩, mem_visits_root.mpr ⟨here, isOpen, rfl⟩, rfl,
      Visit.owner?_eq_some.mpr ⟨inside, isName⟩, Visit.method?_eq_some.mpr ⟨sketch, isMethod, same⟩⟩
  · rintro ⟨visit, member, rfl, owned, isMethod⟩
    obtain ⟨here, isOpen, types⟩ := mem_visits_root.mp member
    obtain ⟨inside, isName⟩ := Visit.owner?_eq_some.mp owned
    obtain ⟨sketch, isMethod, same⟩ := Visit.method?_eq_some.mp isMethod
    exact ⟨visit.node, sketch, here, isMethod, isOpen, types ▸ inside, types ▸ isName, same⟩

theorem eq_of_prefix_of_hides {first second : Node} {a b : Address}
    (isFirst : root.at? a = some first) (hides : first.kind.hides = true)
    (isSecond : root.at? b = some second) (isOpen : root.Open b) (up : a <+: b) :
    a = b := by
  obtain ⟨middle, rest, rfl, atMiddle, below⟩ := Node.exists_at?_of_prefix up isSecond
  cases isFirst.symm.trans atMiddle
  cases rest with
  | nil => exact (List.append_nil a).symm
  | cons i rest =>
    obtain ⟨child, isChild, _⟩ := Node.at?_cons_eq_some.mp below
    have shows : first.kind.hides = false := by
      apply isOpen
      rw [Node.above_append isFirst, Node.above_cons isChild]
      exact List.mem_append_right _ List.mem_cons_self
    rw [shows] at hides
    cases hides

theorem MethodAt.precedes (nested : root.Nested) {first second : SourceMethod} {a b : Address}
    (isFirst : MethodAt package root name first a) (isSecond : MethodAt package root name second b)
    (before : Address.Before a b) : root.Precedes a b := by
  obtain ⟨x, _, atFirst, isMethod, _⟩ := isFirst
  obtain ⟨y, _, atSecond, _, isOpen, _⟩ := isSecond
  refine ⟨before, x, y, atFirst, atSecond, ?_⟩
  rcases nested.order atFirst atSecond before with up | apart
  · have hides : x.kind.hides = true := by rw [isMethod]; rfl
    cases eq_of_prefix_of_hides atFirst hides atSecond isOpen up
    exact before.irrefl.elim
  · exact apart

def Visit.isMethod (method : String) (visit : Visit) : Bool :=
  visit.method?.any fun found => found.name = method

theorem Visit.forall₂_methods (method : String) {run : List Visit}
    (owned : ∀ visit ∈ run, visit ∈ visits [] [] root ∧ visit.owner? package = some name) :
    List.Forall₂ (MethodAt package root name)
    ((run.filterMap Visit.method?).filter fun found => found.name = method)
      ((run.filter (isMethod method)).map Visit.address) := by
  induction run with
  | nil => exact .nil
  | cons visit rest ih =>
    rw [List.forall_mem_cons] at owned
    have others := ih owned.2
    rw [List.filterMap_cons, List.filter_cons, isMethod]
    cases isMethod : visit.method? with
    | none => simpa using others
    | some found =>
      by_cases same : found.name = method
      · have here : MethodAt package root name found visit.address :=
          methodAt_iff.mpr ⟨visit, owned.1.1, rfl, owned.1.2, isMethod⟩
        simpa [same] using And.intro here others
      · simpa [same] using others

theorem listsMethods_visits (nested : root.Nested) (method : String) :
    ListsMethods package root name method
      ((((visits [] [] root).filter fun visit => visit.owner? package = some name).filterMap
        Visit.method?).filter
        fun found => found.name = method) := by
  have owned : ∀ visit ∈ (visits [] [] root).filter (fun visit => visit.owner? package = some name),
      visit ∈ visits [] [] root ∧ visit.owner? package = some name := by
    intro visit member
    simpa using List.mem_filter.mp member
  refine ⟨_, ?_, ?_, Visit.forall₂_methods method owned⟩
  · rw [List.pairwise_map]
    have ordered :=
      ((visits_ordered [] root []).filter (fun visit => visit.owner? package = some name)).filter
      (Visit.isMethod method)
    apply ordered.imp_of_mem
    intro first second isFirst isSecond before
    obtain ⟨isFirst, firstMethod⟩ := List.mem_filter.mp isFirst
    obtain ⟨isSecond, secondMethod⟩ := List.mem_filter.mp isSecond
    obtain ⟨_, firstMethod, _⟩ := (Option.any_eq_true _ _).mp firstMethod
    obtain ⟨_, secondMethod, _⟩ := (Option.any_eq_true _ _).mp secondMethod
    have left :=
      methodAt_iff.mpr ⟨first, (owned first isFirst).1, rfl, (owned first isFirst).2, firstMethod⟩
    have right :=
      methodAt_iff.mpr
        ⟨second, (owned second isSecond).1, rfl, (owned second isSecond).2, secondMethod⟩
    exact left.precedes nested right before
  · intro address
    simp only [methodAt_iff, List.mem_map, List.mem_filter, Visit.isMethod, Option.any_eq_true,
      decide_eq_true_eq]
    constructor
    · rintro ⟨visit, ⟨⟨member, owned⟩, found, isMethod, same⟩, rfl⟩
      exact ⟨found, ⟨visit, member, rfl, owned, isMethod⟩, same⟩
    · rintro ⟨found, ⟨visit, member, rfl, owned, isMethod⟩, same⟩
      exact ⟨visit, ⟨⟨member, owned⟩, found, isMethod, same⟩, rfl⟩

theorem Visit.exists_delimits_of_foreign {visit : Visit}
    (here : root.at? visit.address = some visit.node)
    {segment : Segment} (taken : segment ∈ visit.foreign) :
    ∃ below found, root.at? (visit.address ++ below) = some found ∧
      Delimits root (visit.address ++ below) ∧ segment = found.segment := by
  have deeper (hides : visit.node.kind.hides = true)
      (member : segment ∈ innerSegmentsOf visit.node.children) :
      ∃ below found, root.at? (visit.address ++ below) = some found ∧
        Delimits root (visit.address ++ below) ∧ segment = found.segment := by
    obtain ⟨below, found, nonempty, atFound, isBody, same⟩ := exists_body_of_mem member
    have atFound' : root.at? (visit.address ++ below) = some found :=
      (Node.at?_append here below).trans atFound
    refine ⟨below, found, atFound', ⟨found, atFound', ?_⟩, same⟩
    cases kind : found.kind with
    | type simple => exact .inl ⟨simple, rfl⟩
    | classBody =>
      refine .inr ⟨rfl, visit.node.kind, ?_, hides⟩
      obtain ⟨i, below, rfl⟩ := List.exists_cons_of_ne_nil nonempty
      obtain ⟨child, isChild, _⟩ := Node.at?_cons_eq_some.mp atFound
      rw [Node.above_append here, Node.above_cons isChild]
      exact List.mem_append_right _ List.mem_cons_self
    | method | creation | constant | other => simp [kind, NodeKind.isBody] at isBody
  unfold foreign at taken
  cases kind : visit.node.kind with
  | type simple =>
    rw [kind] at taken
    have here' :
        root.at? (visit.address ++ []) = some visit.node := by rw [List.append_nil]; exact here
    exact ⟨[], visit.node, here', ⟨visit.node, here', .inl ⟨simple, kind⟩⟩,
      List.mem_singleton.mp taken⟩
  | method | creation | constant =>
    rw [kind] at taken
    exact deeper (by rw [kind]; rfl) taken
  | classBody | other =>
    rw [kind] at taken
    cases taken

theorem Delimits.child {node child : Node} {i : Nat} {address : Address}
    (delimits : Delimits node (i :: address)) (isChild : node.children[i]? = some child)
    (shows : node.kind.hides = false) : Delimits child address := by
  obtain ⟨found, here, mark⟩ := delimits
  obtain ⟨child', isChild', below⟩ := Node.at?_cons_eq_some.mp here
  cases isChild.symm.trans isChild'
  refine ⟨found, below, ?_⟩
  rcases mark with isType | ⟨isBody, kind, member, hides⟩
  · exact .inl isType
  · rw [Node.above_cons isChild] at member
    rcases List.mem_cons.mp member with rfl | member
    · rw [shows] at hides
      cases hides
    · exact .inr ⟨isBody, kind, member, hides⟩

theorem Delimits.below {node : Node} {address rest : Address}
    (delimits : Delimits root (address ++ rest)) (here : root.at? address = some node)
    (isOpen : root.Open address) : Delimits node rest := by
  induction address generalizing root with
  | nil =>
    cases here
    exact delimits
  | cons i address ih =>
    obtain ⟨child, isChild, deeper⟩ := Node.at?_cons_eq_some.mp here
    obtain ⟨shows, isOpen⟩ := (Node.open_cons isChild).mp isOpen
    exact ih (delimits.child isChild shows) deeper isOpen

theorem exists_first_mark {node : Node} {address : Address} (delimits : Delimits node address) :
    ∃ upper rest middle found, address = upper ++ rest ∧ node.at? upper = some middle ∧
      middle.at? rest = some found ∧ found.kind.isBody = true ∧ node.Open upper ∧
      typeNames (node.above upper) = [] ∧
      ((∃ simple, middle.kind = .type simple) ∨ middle.kind.hides = true ∧ rest ≠ []) := by
  induction address generalizing node with
  | nil =>
    obtain ⟨found, here, mark⟩ := delimits
    cases here
    rcases mark with ⟨simple, isType⟩ | ⟨_, _, member, _⟩
    · exact ⟨[], [], node, node, rfl, rfl, rfl, by rw [isType]; rfl, node.open_nil, rfl,
        .inl ⟨simple, isType⟩⟩
    · cases member
  | cons i address ih =>
    obtain ⟨found, here, mark⟩ := delimits
    have isBody : found.kind.isBody = true := by
      rcases mark with ⟨simple, isType⟩ | ⟨isBody, _⟩
      · rw [isType]
        rfl
      · rw [isBody]
        rfl
    obtain ⟨child, isChild, _⟩ := Node.at?_cons_eq_some.mp here
    cases hides : node.kind.hides with
    | true =>
      exact ⟨[], i :: address, node, found, rfl, rfl, here, isBody, node.open_nil, rfl,
        .inr ⟨hides, List.cons_ne_nil _ _⟩⟩
    | false =>
      cases isType : node.kind.typeName? with
      | some simple =>
        exact ⟨[], i :: address, node, found, rfl, rfl, here, isBody, node.open_nil, rfl,
          .inl ⟨simple, NodeKind.typeName?_eq_some.mp isType⟩⟩
      | none =>
        have deeper : Delimits child address := Delimits.child ⟨found, here, mark⟩ isChild hides
        obtain ⟨upper, rest, middle, last, rfl, atMiddle, atLast, isBody, isOpen, names, stops⟩ :=
          ih deeper
        refine ⟨i :: upper, rest, middle, last, rfl,
          Node.at?_cons_eq_some.mpr ⟨child, isChild, atMiddle⟩, atLast, isBody,
          (Node.open_cons isChild).mpr ⟨hides, isOpen⟩, ?_, stops⟩
        rw [Node.above_cons isChild, typeNames_cons, isType, names]
        rfl

theorem exists_foreign_of_delimits {first other : Address}
    (declared : DeclaredAt package root name first)
    (delimits : Delimits root other) (up : first <+: other) (apart : first ≠ other) :
    ∃ visit ∈ visits [] [] root, visit.owner? package = some name ∧ ∃ outer upper, upper <+: other ∧
      root.at? upper = some outer ∧ outer.segment ∈ visit.foreign := by
  obtain ⟨node, simple, here, isType, isOpen, isName⟩ := declared
  obtain ⟨rest, rfl⟩ := up
  obtain ⟨i, rest, rfl⟩ : ∃ i tail, rest = i :: tail := by
    apply List.exists_cons_of_ne_nil
    rintro rfl
    exact apart (List.append_nil first).symm
  have inside : Delimits node (i :: rest) := delimits.below here isOpen
  obtain ⟨child, isChild⟩ : ∃ child, node.children[i]? = some child := by
    obtain ⟨_, found, _⟩ := inside
    obtain ⟨child, isChild, _⟩ := Node.at?_cons_eq_some.mp found
    exact ⟨child, isChild⟩
  obtain ⟨upper, rest, stop, found, rfl, atStop, atFound, isBody, stopOpen, names, stops⟩ :=
    exists_first_mark (inside.child isChild (by rw [isType]; rfl))
  have atVisit : root.at? (first ++ i :: upper) = some stop :=
    (Node.at?_append here _).trans (Node.at?_cons_eq_some.mpr ⟨child, isChild, atStop⟩)
  have pathStop : root.above (first ++ i :: upper) = root.above first ++ .type simple ::
      child.above upper := by
    rw [Node.above_append here, Node.above_cons isChild, isType]
  have typesStop : typeNames (root.above (first ++ i :: upper)) =
      typeNames (root.above first) ++ [simple] := by
    rw [pathStop, typeNames_append, typeNames_cons, names]
    rfl
  have openStop : root.Open (first ++ i :: upper) := by
    rw [Node.Open, pathStop, List.forall_mem_append, List.forall_mem_cons]
    exact ⟨isOpen, rfl, stopOpen⟩
  refine ⟨⟨first ++ i :: upper, typeNames (root.above first) ++ [simple], stop⟩,
    mem_visits_root.mpr ⟨atVisit, openStop, typesStop.symm⟩, ?_, ?_⟩
  · rw [Visit.owner?_eq_some]
    exact ⟨List.append_ne_nil_of_right_ne_nil _ (List.cons_ne_nil _ _), isName⟩
  · rcases stops with ⟨inner, isInner⟩ | ⟨hides, deeper⟩
    · refine ⟨stop, first ++ i :: upper, ⟨rest, ?_⟩, atVisit, ?_⟩
      · rw [List.append_assoc, List.cons_append]
      · rw [Visit.foreign, isInner]
        exact List.mem_singleton_self _
    · obtain ⟨way, last, outer, rfl, atOuter, listed⟩ := exists_mem_of_body atFound deeper isBody
      refine ⟨outer, (first ++ i :: upper) ++ way, ⟨last, ?_⟩,
        (Node.at?_append atVisit way).trans atOuter, ?_⟩
      · simp only [List.append_assoc, List.cons_append]
      · unfold Visit.foreign
        cases kind : stop.kind with
        | method | creation | constant => exact listed
        | type | classBody | other =>
          rw [kind] at hides
          cases hides

/-- The text that a type keeps is what its first declaration encloses most closely. -/
theorem innermost_iff (nested : root.Nested) {first : Address} {node : Node}
    (declared : DeclaredAt package root name first)
    (here : root.at? first = some node) {byte : Nat} (inside : node.segment.holds byte = true) :
    (∀ visit ∈ visits [] [] root, visit.owner? package = some name →
      ∀ segment ∈ visit.foreign, segment.holds byte = false) ↔ Innermost root byte first := by
  obtain ⟨_, simple, here', isType, isOpen, isName⟩ := declared
  cases here.symm.trans here'
  constructor
  · intro kept
    refine ⟨⟨node, here, .inl ⟨simple, isType⟩⟩, ⟨node, here, inside⟩, ?_⟩
    intro other delimits around
    obtain ⟨found, atOther, holds⟩ := around
    rcases nested.comparable here atOther inside holds with below | up
    · by_cases same : first = other
      · exact same ▸ List.prefix_refl first
      · obtain ⟨visit, member, owned, outer, upper, up, atOuter, taken⟩ :=
          exists_foreign_of_delimits
            ⟨node, simple, here, isType, isOpen, isName⟩ delimits below same
        -- The stretch taken encloses the other node, so that the byte is in it.
        obtain ⟨_, _, rfl, atUpper, atFound⟩ := Node.exists_at?_of_prefix up atOther
        cases atOuter.symm.trans atUpper
        obtain ⟨_, start, stop⟩ := (nested.inside atOuter).1.inside atFound
        have free := kept visit member owned outer.segment taken
        rw [← Bool.not_eq_true, Segment.holds_iff] at free
        rw [Segment.holds_iff] at holds
        simp only [Node.segment] at free holds
        omega
    · exact up
  · rintro ⟨_, _, innermost⟩ visit member owned segment taken
    by_contra covered
    rw [Bool.not_eq_false] at covered
    obtain ⟨atVisit, _, types⟩ := mem_visits_root.mp member
    obtain ⟨outside, sameName⟩ := Visit.owner?_eq_some.mp owned
    obtain ⟨below, found, atFound, delimits, rfl⟩ := visit.exists_delimits_of_foreign atVisit taken
    have up := innermost _ delimits ⟨found, atFound, covered⟩
    -- The type around the visit would then be around the declaration as well, and have a shorter
    -- name.
    obtain ⟨_, rest, rfl, atMiddle, _⟩ :=
      Node.exists_at?_of_prefix ((List.prefix_append _ below).trans up) here
    rw [Node.above_append atVisit, typeNames_append, ← types, List.append_assoc] at isName
    refine nestedName_ne_append package outside ?_ (sameName.trans isName.symm)
    exact List.append_ne_nil_of_right_ne_nil _ (List.cons_ne_nil _ _)

theorem exists_first_declared {type : SourceType}
    (present : (indexNode package [] root []).get? name = some type) :
    ∃ first ∈ visits [] [] root, DeclaredAt package root name first.address ∧
      (∀ other, DeclaredAt package root name other → other = first.address ∨
        Address.Before first.address other) ∧ ∃ new, first.declared? package = some new ∧
          type = ((visits [] [] root).filter fun visit => visit.owner? package = some name).foldl
            Visit.addTo new := by
  cases found : (visits [] [] root).find? (·.declares package name) with
  | none =>
    rw [get?_indexNode_eq_none found] at present
    cases present
  | some first =>
    obtain ⟨declares, earlier, later, split, others⟩ := List.find?_eq_some_iff_append.mp found
    have member : first ∈ visits [] [] root := List.mem_of_find?_eq_some found
    obtain ⟨new, isNew, _⟩ := (Option.any_eq_true _ _).mp declares
    rw [get?_indexNode found isNew] at present
    refine ⟨first, member, declaredAt_iff.mpr ⟨first, member, rfl, declares⟩, ?_, new, isNew,
      (Option.some.inj present).symm⟩
    intro other declared
    obtain ⟨visit, isVisit, rfl, again⟩ := declaredAt_iff.mp declared
    have ordered := visits_ordered [] root []
    rw [split, List.pairwise_append, List.pairwise_cons] at ordered
    rw [split, List.mem_append, List.mem_cons] at isVisit
    rcases isVisit with early | rfl | late
    · have undeclared := others visit early
      rw [again] at undeclared
      cases undeclared
    · exact .inl rfl
    · exact .inr (ordered.2.1.1 visit late)

theorem get?_indexNode_eq_none_iff :
    (indexNode package [] root []).get? name = none ↔
    ∀ address, ¬ DeclaredAt package root name address := by
  cases found : (visits [] [] root).find? (·.declares package name) with
  | none =>
    refine iff_of_true (get?_indexNode_eq_none found) ?_
    intro address declared
    obtain ⟨visit, member, _, declares⟩ := declaredAt_iff.mp declared
    exact List.find?_eq_none.mp found visit member declares
  | some first =>
    have declares : first.declares package name = true := List.find?_some found
    obtain ⟨new, isNew, _⟩ := (Option.any_eq_true _ _).mp declares
    refine iff_of_false ?_ ?_
    · rw [get?_indexNode found isNew]
      exact Option.some_ne_none _
    · intro undeclared
      have member : first ∈ visits [] [] root := List.mem_of_find?_eq_some found
      exact undeclared first.address (declaredAt_iff.mpr ⟨first, member, rfl, declares⟩)

end Attribution

section Index

variable {outline : Outline} {name : String} {type : SourceType}

theorem index_listsMethods (nested : outline.root.Nested)
    (present : outline.index.get? name = some type)
    (method : String) :
    ListsMethods outline.package outline.root name method ((type.methods.get? method).getD []) ∧
      type.methods.get? method ≠ some [] := by
  obtain ⟨first, _, _, _, new, isNew, rfl⟩ := exists_first_declared present
  obtain ⟨simple, _, rfl⟩ := Visit.declared?_eq_some.mp isNew
  constructor
  · rw [Visit.foldl_addTo_methods]
    exact listsMethods_visits nested method
  · exact Visit.foldl_addTo_methods_ne_nil (by simp [SourceType.ofSpan, Table.get?]) _

theorem index_keepsInnermost (nested : outline.root.Nested)
    (present : outline.index.get? name = some type) :
    ∃ first node, outline.root.at? first = some node ∧
      DeclaredAt outline.package outline.root name first ∧
      (∀ other, DeclaredAt outline.package outline.root name other → other = first ∨
        Address.Before first other) ∧ node.segment = ⟨type.start, type.stop⟩ ∧
        ∀ byte, node.segment.holds byte = true →
          ((∀ segment ∈ type.foreign, segment.holds byte = false) ↔
          Innermost outline.root byte first) := by
  obtain ⟨first, member, declared, least, new, isNew, rfl⟩ := exists_first_declared present
  obtain ⟨simple, _, rfl⟩ := Visit.declared?_eq_some.mp isNew
  obtain ⟨here, _, _⟩ := mem_visits_root.mp member
  refine ⟨first.address, first.node, here, declared, least, ?_, ?_⟩
  · obtain ⟨start, stop⟩ :=
      Visit.foldl_addTo_span
        (.ofSpan outline.package (first.types ++ [simple]) simple first.node.span)
      ((visits [] [] outline.root).filter fun visit => visit.owner? outline.package = some name)
    rw [start, stop]
    rfl
  · intro byte inside
    rw [← innermost_iff nested declared here inside, Visit.foldl_addTo_foreign]
    simp only [SourceType.ofSpan, List.nil_append, List.mem_flatMap, List.mem_filter,
      decide_eq_true_eq]
    constructor
    · intro kept visit isVisit owned segment taken
      exact kept segment ⟨visit, ⟨isVisit, owned⟩, taken⟩
    · rintro kept segment ⟨visit, ⟨isVisit, owned⟩, taken⟩
      exact kept visit isVisit owned segment taken

theorem index_places (present : outline.index.get? name = some type) :
    ∀ segment ∈ ⟨type.start, type.stop⟩ :: type.foreign, ∃ address found,
      outline.root.at? address = some found ∧ segment = found.segment := by
  obtain ⟨first, member, _, _, new, isNew, rfl⟩ := exists_first_declared present
  obtain ⟨simple, _, rfl⟩ := Visit.declared?_eq_some.mp isNew
  obtain ⟨here, _⟩ := mem_visits_root.mp member
  rw [List.forall_mem_cons]
  constructor
  · obtain ⟨start, stop⟩ :=
      Visit.foldl_addTo_span
        (.ofSpan outline.package (first.types ++ [simple]) simple first.node.span)
      ((visits [] [] outline.root).filter fun visit => visit.owner? outline.package = some name)
    rw [start, stop]
    exact ⟨first.address, first.node, here, rfl⟩
  · intro segment taken
    rw [Visit.foldl_addTo_foreign] at taken
    simp only [SourceType.ofSpan, List.nil_append, List.mem_flatMap, List.mem_filter] at taken
    obtain ⟨visit, ⟨isVisit, _⟩, taken⟩ := taken
    obtain ⟨below, found, atFound, _, same⟩ :=
      visit.exists_delimits_of_foreign (mem_visits_root.mp isVisit).1 taken
    exact ⟨_, found, atFound, same⟩

end Index

/-- In an outline whose nodes lie inside each other, the index has the types that are declared.
Under each name it lists the methods whose enclosing types spell the name of the type, as they stand
in the text. Of the bytes of its first declaration a type keeps those that no other type or
anonymous class encloses more closely. -/
theorem index_attributes (outline : Outline) (nested : outline.root.Nested) (name : String) :
    (outline.index.get? name = none ↔
      ∀ address, ¬ DeclaredAt outline.package outline.root name address) ∧
      ∀ type, outline.index.get? name = some type →
        (∀ method, ListsMethods outline.package outline.root name method
          ((type.methods.get? method).getD []) ∧ type.methods.get? method ≠ some []) ∧
        ∃ first node, outline.root.at? first = some node ∧
          DeclaredAt outline.package outline.root name first ∧
          (∀ other, DeclaredAt outline.package outline.root name other → other = first ∨
            Address.Before first other) ∧ node.segment = ⟨type.start, type.stop⟩ ∧
            ∀ byte, node.segment.holds byte = true →
              ((∀ segment ∈ type.foreign, segment.holds byte = false) ↔
              Innermost outline.root byte first) := by
  refine ⟨get?_indexNode_eq_none_iff, ?_⟩
  intro type present
  exact ⟨index_listsMethods nested present, index_keepsInnermost nested present⟩

/-- A class with a local, an anonymous and a member class in it, each of which is closer to some of
the text. -/
def mixedTree : SyntaxTree :=
  .node .other [.word "package", .space, .word "p", .mark ";",
    .node (.type "A")
      [.word "class", .space, .word "A", .space, .node .classBody [.group .curly [.space,
      .node (.method "f" [])
        [.word "int", .space, .word "f", .group .round [], .space, .group .curly [.space,
        .node (.type "B") [.word "class", .space, .word "B", .space, .group .curly [.space]],
        .space]], .space, .word "I", .space, .word "x", .space, .mark "=", .space,
      .node .creation [.word "new", .space, .word "I", .group .round [], .space,
        .node .classBody [.group .curly [.space]]],
      .mark ";", .space,
      .node (.type "C") [.word "class", .space, .word "C", .space, .group .curly [.space,
        .node (.method "f" [])
          [.word "int", .space, .word "f", .group .round [], .space, .group .curly [.space]],
        .space]],
      .space,
      .node (.method "f" ["int y"]) [.word "int", .space, .word "f",
        .group .round [.word "int", .space, .word "y"], .space, .group .curly [.space]],
      .space]]]]

def mixedSource : List Char :=
  ("package p;class A \x7b int f() \x7b class B \x7b \x7d \x7d I x = new I() \x7b \x7d; " ++
    "class C \x7b int f() \x7b \x7d \x7d int f(int y) \x7b \x7d \x7d").toList

def mixedOutline : Outline := mixedTree.outline (some "p")

def mixedType : SourceType :=
  { simpleName := "A", binaryName := "p.A", line := 0, column := 10, start := 10, stop := 105
    foreign := [⟨30, 41⟩, ⟨58, 61⟩, ⟨63, 86⟩]
    methods := [("f",
      [⟨"f", [], 0, 20, some "class B \x7b \x7d"⟩, ⟨"f", ["int y"], 0, 87, some ""⟩])] }

theorem index_attributes_mixed :
    mixedTree.text = mixedSource ∧ mixedOutline.root.Nested ∧
    mixedOutline.index.get? "p.A" = some mixedType ∧
      ListsMethods mixedOutline.package mixedOutline.root "p.A" "f"
        ((mixedType.methods.get? "f").getD []) ∧
        ∃ first, ∀ byte, (⟨10, 105⟩ : Segment).holds byte = true →
          ((∀ segment ∈ mixedType.foreign, segment.holds byte = false) ↔
          Innermost mixedOutline.root byte first) := by
  have nested : mixedOutline.root.Nested := mixedTree.outlined_nested .zero
  have present : mixedOutline.index.get? "p.A" = some mixedType := by decide +kernel
  obtain ⟨methods, first, node, _, _, _, segment, text⟩ :=
    (index_attributes mixedOutline nested "p.A").2 mixedType present
  refine ⟨by decide +kernel, nested, present, (methods "f").1, first, ?_⟩
  rw [segment] at text
  exact text

end CallAtlas.Java
