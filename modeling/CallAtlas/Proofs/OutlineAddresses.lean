import CallAtlas.Java.SourceIndex

/-!
Addresses in an outline: the way from the root to a node, what stands above it, and how the
addresses of nodes go with the stretches of text they span.
-/

namespace CallAtlas.Java

/-- Which child to take at each step down. One address is at or above another if it is a prefix of
it. -/
abbrev Address := List Nat

/-- In the order of the text: a node comes before what is below it, and before its later
siblings. -/
def Address.Before (first second : Address) : Prop := List.Lex (· < ·) first second

namespace Address.Before

theorem below {first second : Address} (before : Before first second) (address : Address) :
    Before (address ++ first) (address ++ second) := by
  induction address with
  | nil => exact before
  | cons i address ih => exact .cons ih

theorem trans {first second third : Address} (left : Before first second)
    (right : Before second third) :
    Before first third :=
  List.lex_trans (fun one two => Nat.lt_trans one two) left right

theorem irrefl {address : Address} (before : Before address address) : False :=
  List.lex_irrefl Nat.lt_irrefl address before

theorem append (address : Address) (i : Nat) (rest : Address) :
    Before address (address ++ i :: rest) := by
  have first : Before (address ++ []) (address ++ i :: rest) := below .nil address
  rw [List.append_nil] at first
  exact first

end Address.Before

namespace NodeKind

/-- Types inside a method, a creation or an enum constant get their names from the compiler. -/
def hides : NodeKind → Bool
  | method _ | creation | constant => true
  | type _ | classBody | other => false

def typeName? : NodeKind → Option String
  | type name => some name
  | _ => none

theorem typeName?_eq_some {kind : NodeKind} {name : String} : kind.typeName? = some name ↔
    kind = .type name := by
  cases kind <;> simp [typeName?]

end NodeKind

def typeNames (kinds : List NodeKind) : List String := kinds.filterMap NodeKind.typeName?

@[simp] theorem typeNames_append (first second : List NodeKind) :
    typeNames (first ++ second) = typeNames first ++ typeNames second := List.filterMap_append

theorem typeNames_cons (kind : NodeKind) (kinds : List NodeKind) :
    typeNames (kind :: kinds) = kind.typeName?.toList ++ typeNames kinds := by
  cases kind <;> rfl

namespace Node

def at? (node : Node) : Address → Option Node
  | [] => some node
  | i :: rest => match node.children[i]? with
    | some child => child.at? rest
    | none => none

def above (node : Node) : Address → List NodeKind
  | [] => []
  | i :: rest => node.kind :: match node.children[i]? with
    | some child => child.above rest
    | none => []

def Open (node : Node) (address : Address) : Prop := ∀ kind ∈ node.above address, kind.hides = false

theorem at?_cons_eq_some {node found : Node} {i : Nat} {rest : Address} :
    node.at? (i :: rest) = some found ↔ ∃ child, node.children[i]? = some child ∧
    child.at? rest = some found := by
  rw [at?]
  cases node.children[i]? <;> simp

theorem above_cons {node child : Node} {i : Nat} (here : node.children[i]? = some child)
    (rest : Address) :
    node.above (i :: rest) = node.kind :: child.above rest := by
  rw [above, here]

theorem open_cons {node child : Node} {i : Nat} (here : node.children[i]? = some child)
    {rest : Address} :
    node.Open (i :: rest) ↔ node.kind.hides = false ∧ child.Open rest := by
  rw [Open, above_cons here, List.forall_mem_cons]
  rfl

theorem open_nil (node : Node) : node.Open [] := by
  intro kind member
  cases member

theorem at?_append {node found : Node} {address : Address} (here : node.at? address = some found)
    (rest : Address) :
    node.at? (address ++ rest) = found.at? rest := by
  induction address generalizing node with
  | nil =>
    cases here
    rfl
  | cons i address ih =>
    obtain ⟨child, isChild, below⟩ := at?_cons_eq_some.mp here
    rw [List.cons_append, at?, isChild]
    exact ih below

theorem above_append {node found : Node} {address : Address} (here : node.at? address = some found)
    (rest : Address) :
    node.above (address ++ rest) = node.above address ++ found.above rest := by
  induction address generalizing node with
  | nil =>
    cases here
    rfl
  | cons i address ih =>
    obtain ⟨child, isChild, below⟩ := at?_cons_eq_some.mp here
    rw [List.cons_append, above_cons isChild, above_cons isChild, ih below, List.cons_append]

theorem exists_at?_of_prefix {node found : Node} {address longer : Address}
    (above : address <+: longer) (here : node.at? longer = some found) :
    ∃ middle rest, longer = address ++ rest ∧ node.at? address = some middle ∧
      middle.at? rest = some found := by
  obtain ⟨rest, rfl⟩ := above
  induction address generalizing node with
  | nil => exact ⟨node, rest, rfl, rfl, here⟩
  | cons i address ih =>
    obtain ⟨child, isChild, below⟩ := at?_cons_eq_some.mp here
    obtain ⟨middle, rest', same, first, second⟩ := ih below
    refine ⟨middle, rest', by rw [List.cons_append, same, List.cons_append], ?_, second⟩
    exact at?_cons_eq_some.mpr ⟨child, isChild, first⟩

theorem exists_type_above {node found : Node} {address : Address}
    (here : node.at? address = some found) (isOpen : node.Open address)
    (inside : typeNames (node.above address) ≠ []) :
    ∃ outer rest type name, address = outer ++ rest ∧ rest ≠ [] ∧ node.at? outer = some type ∧
      type.kind = .type name ∧ node.Open outer ∧
        typeNames (node.above address) = typeNames (node.above outer) ++ [name] := by
  induction address generalizing node with
  | nil => exact absurd rfl inside
  | cons i address ih =>
    obtain ⟨child, isChild, below⟩ := at?_cons_eq_some.mp here
    rw [open_cons isChild] at isOpen
    rw [above_cons isChild, typeNames_cons] at inside ⊢
    by_cases deeper : typeNames (child.above address) = []
    · -- There is no type further down, so that the node itself is the one.
      rw [deeper, List.append_nil] at inside ⊢
      cases kind : node.kind.typeName? with
      | none => simp [kind] at inside
      | some name =>
        exact ⟨[], i :: address, node, name, rfl, List.cons_ne_nil _ _, rfl,
          NodeKind.typeName?_eq_some.mp kind, node.open_nil, rfl⟩
    · obtain ⟨outer, rest, type, name, rfl, nonempty, atOuter, isType, openOuter, names⟩ :=
        ih below isOpen.2 deeper
      refine ⟨i :: outer, rest, type, name, rfl, nonempty,
        at?_cons_eq_some.mpr ⟨child, isChild, atOuter⟩, isType, ?_, ?_⟩
      · exact (open_cons isChild).mpr ⟨isOpen.1, openOuter⟩
      · rw [above_cons isChild, typeNames_cons, names, List.append_assoc]

end Node

def Segment.holds (segment : Segment) (i : Nat) : Bool := segment.start ≤ i && i < segment.stop

theorem Segment.holds_iff {segment : Segment} {i : Nat} :
    segment.holds i = true ↔ segment.start ≤ i ∧ i < segment.stop := by
  rw [Segment.holds, Bool.and_eq_true, decide_eq_true_iff, decide_eq_true_iff]

mutual

def Node.nested : Node → Bool
  | .mk _ span children => allNested span.start.byte span.stop children

def allNested (low high : Nat) : List Node → Bool
  | [] => low ≤ high
  | node :: rest =>
    low ≤ node.span.start.byte && (node.nested && allNested node.span.stop high rest)

end

/-- The children of a node lie inside its span, one after the other, and so do theirs. -/
def Node.Nested (node : Node) : Prop := node.nested = true

instance (node : Node) : Decidable node.Nested := inferInstanceAs (Decidable (_ = true))

def AllNested (low high : Nat) (nodes : List Node) : Prop := allNested low high nodes = true

theorem allNested_nil {low high : Nat} : AllNested low high [] ↔ low ≤ high := by
  rw [AllNested, allNested, decide_eq_true_iff]

theorem allNested_cons {low high : Nat} {node : Node} {rest : List Node} :
    AllNested low high (node :: rest) ↔ low ≤ node.span.start.byte ∧ node.Nested ∧
    AllNested node.span.stop high rest := by
  rw [AllNested, allNested, Bool.and_eq_true, Bool.and_eq_true, decide_eq_true_iff]
  rfl

mutual

theorem Node.Nested.range : ∀ {node : Node}, node.Nested → node.span.start.byte ≤ node.span.stop
  | .mk _ _ _, nested => AllNested.range nested

theorem AllNested.range :
    ∀ {nodes : List Node} {low high : Nat}, AllNested low high nodes → low ≤ high
  | [], _, _, nested => allNested_nil.mp nested
  | _ :: _, _, _, nested =>
    have ⟨first, inner, rest⟩ := allNested_cons.mp nested
    Nat.le_trans first (Nat.le_trans inner.range rest.range)

end

theorem AllNested.widen {low high low' high' : Nat} {nodes : List Node}
    (nested : AllNested low high nodes) (left : low' ≤ low) (right : high ≤ high') :
    AllNested low' high' nodes := by
  induction nodes generalizing low low' with
  | nil =>
    exact allNested_nil.mpr (Nat.le_trans left (Nat.le_trans (allNested_nil.mp nested) right))
  | cons node rest ih =>
    obtain ⟨first, inner, others⟩ := allNested_cons.mp nested
    exact allNested_cons.mpr ⟨Nat.le_trans left first, inner, ih others (Nat.le_refl _)⟩

theorem AllNested.child {low high : Nat} {nodes : List Node} (nested : AllNested low high nodes)
    {i : Nat} {child : Node} (here : nodes[i]? = some child) : child.Nested ∧
    low ≤ child.span.start.byte ∧ child.span.stop ≤ high := by
  induction nodes generalizing low i with
  | nil => cases here
  | cons node rest ih =>
    obtain ⟨first, inner, others⟩ := allNested_cons.mp nested
    cases i with
    | zero =>
      cases here
      exact ⟨inner, first, others.range⟩
    | succ i =>
      obtain ⟨childNested, after, before⟩ := ih others here
      have range := inner.range
      exact ⟨childNested, by omega, before⟩

theorem AllNested.order {low high : Nat} {nodes : List Node}
    (nested : AllNested low high nodes) {i j : Nat}
    {first second : Node} (isFirst : nodes[i]? = some first)
    (isSecond : nodes[j]? = some second) (lt : i < j) :
    first.span.stop ≤ second.span.start.byte := by
  induction nodes generalizing low i j with
  | nil => cases isFirst
  | cons node rest ih =>
    obtain ⟨_, _, others⟩ := allNested_cons.mp nested
    cases j with
    | zero => omega
    | succ j =>
      cases i with
      | zero =>
        cases isFirst
        exact (others.child isSecond).2.1
      | succ i => exact ih others isFirst isSecond (by omega)

namespace Node.Nested

theorem children {node : Node} (nested : node.Nested) :
    AllNested node.span.start.byte node.span.stop node.children := by
  cases node
  exact nested

theorem inside {node found : Node} {address : Address} (nested : node.Nested)
    (here : node.at? address = some found) :
    found.Nested ∧ node.span.start.byte ≤ found.span.start.byte ∧
    found.span.stop ≤ node.span.stop := by
  induction address generalizing node with
  | nil =>
    cases here
    exact ⟨nested, Nat.le_refl _, Nat.le_refl _⟩
  | cons i address ih =>
    obtain ⟨child, isChild, below⟩ := at?_cons_eq_some.mp here
    obtain ⟨childNested, after, before⟩ := nested.children.child isChild
    obtain ⟨foundNested, start, stop⟩ := ih childNested below
    exact ⟨foundNested, by omega, by omega⟩

theorem order {node first second : Node} {a b : Address} (nested : node.Nested)
    (isFirst : node.at? a = some first) (isSecond : node.at? b = some second)
    (before : Address.Before a b) :
    a <+: b ∨ first.span.stop ≤ second.span.start.byte := by
  induction a generalizing node b with
  | nil => exact .inl List.nil_prefix
  | cons i a ih =>
    obtain ⟨child, isChild, below⟩ := at?_cons_eq_some.mp isFirst
    cases before with
    | rel lt =>
      obtain ⟨child', isChild', below'⟩ := at?_cons_eq_some.mp isSecond
      have apart := nested.children.order isChild isChild' lt
      have left := ((nested.children.child isChild).1.inside below).2.2
      have right := ((nested.children.child isChild').1.inside below').2.1
      exact .inr (by omega)
    | cons later =>
      obtain ⟨child', isChild', below'⟩ := at?_cons_eq_some.mp isSecond
      cases isChild.symm.trans isChild'
      rcases ih (nested.children.child isChild).1 below below' later with up | apart
      · exact .inl (List.cons_prefix_cons.mpr ⟨rfl, up⟩)
      · exact .inr apart

/-- Two nodes around one byte stand one above the other. -/
theorem comparable {node first second : Node} {a b : Address} (nested : node.Nested)
    (isFirst : node.at? a = some first) (isSecond : node.at? b = some second) {byte : Nat}
    (left : first.segment.holds byte = true) (right : second.segment.holds byte = true) :
    a <+: b ∨ b <+: a := by
  rw [Segment.holds_iff] at left right
  simp only [Node.segment] at left right
  by_cases ab : Address.Before a b
  · exact (nested.order isFirst isSecond ab).elim .inl fun _ => by omega
  · by_cases ba : Address.Before b a
    · exact (nested.order isSecond isFirst ba).elim .inr fun _ => by omega
    · have same : a = b := List.lex_trichotomous (fun _ _ => by omega) ba ab
      exact .inl (same ▸ List.prefix_refl a)

end Node.Nested

theorem nestedName_ne_append (package : Option String) {types more : List String}
    (outer : types ≠ []) (inner : more ≠ []) :
    nestedName package types ≠ nestedName package (types ++ more) := by
  intro same
  have lengths := congrArg String.length same
  have longer : ("$".intercalate types).length < ("$".intercalate (types ++ more)).length := by
    rw [String.intercalate_append_of_ne_nil outer inner, String.length_append, String.length_append]
    have dollar : "$".length = 1 := rfl
    omega
  unfold nestedName at lengths
  cases package with
  | none => exact absurd lengths (Nat.ne_of_lt longer)
  | some name =>
    simp only at lengths
    split at lengths
    · exact absurd lengths (Nat.ne_of_lt longer)
    · simp only [String.length_append] at lengths
      exact absurd (Nat.add_left_cancel lengths) (Nat.ne_of_lt longer)

end CallAtlas.Java
