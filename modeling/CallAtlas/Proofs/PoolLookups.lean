import CallAtlas.ClassFile.Pool
import CallAtlas.Proofs.Outcomes

/-!
What the places of a constant pool name, and that lookups find it. A lookup that is defined here has
a result exactly where the constants are of the right sort.
-/

namespace CallAtlas.ClassFile.Pool

def text? (pool : Pool) (i : Nat) : Option String :=
  match pool.constant? i with
  | some (.utf8 text) => some text
  | _ => none

def class? (pool : Pool) (i : Nat) : Option String :=
  match pool.constant? i with
  | some (.classRef name) => pool.text? name
  | _ => none

def nameAndType? (pool : Pool) (i : Nat) : Option (String × String) :=
  match pool.constant? i with
  | some (.nameAndType name descriptor) => do return (← pool.text? name, ← pool.text? descriptor)
  | _ => none

def member? (pool : Pool) (owner nat : Nat) : Option (String × String × String) := do
  let (name, descriptor) ← pool.nameAndType? nat
  return (← pool.class? owner, name, descriptor)

def memberRef? (pool : Pool) (i : Nat) : Option (String × String × String) :=
  match pool.constant? i with
  | some (.field owner nat) | some (.method owner nat) | some (.interfaceMethod owner nat) =>
    pool.member? owner nat
  | _ => none

def methodRef? (pool : Pool) (i : Nat) : Option MethodRef :=
  match pool.constant? i with
  | some (.method owner nat) =>
    (pool.member? owner nat).map fun (owner, name, descriptor) => ⟨owner, name, descriptor, false⟩
  | some (.interfaceMethod owner nat) =>
    (pool.member? owner nat).map fun (owner, name, descriptor) => ⟨owner, name, descriptor, true⟩
  | _ => none

def callSite? (pool : Pool) (i : Nat) : Option (String × String) :=
  match pool.constant? i with
  | some (.invokeDynamic _ nat) => pool.nameAndType? nat
  | _ => none

def literal? (pool : Pool) (i : Nat) : Option Literal :=
  match pool.constant? i with
  | none => none
  | some (.integer value) | some (.long value) => some (.int value)
  | some (.single value) | some (.double value) => some (.float value)
  | some (.string text) => (pool.text? text).map .text
  | some (.classRef name) => (pool.text? name).map .type
  | some (.methodType descriptor) => (pool.text? descriptor).map .type
  | some (.dynamic _ nat) =>
    (pool.nameAndType? nat).map fun (name, descriptor) => .marker s!"#dynamic {name} {descriptor}"
  | some other => some (.marker s!"#{other.tag}")

theorem entry_eq_ok {pool : Pool} {i : Nat} {constant : Constant}
    (found : pool.constant? i = some constant) :
    pool.entry i = .ok constant := by
  rw [entry, found]

theorem text?_eq_some {pool : Pool} {i : Nat} {text : String} :
    pool.text? i = some text ↔ pool.constant? i = some (.utf8 text) := by
  unfold text?
  split
  · rename_i here
    simp [here]
  · rename_i other
    constructor
    · intro impossible
      cases impossible
    · intro here
      exact (other text here).elim

theorem utf8_eq_ok {pool : Pool} {i : Nat} {text : String} (found : pool.text? i = some text) :
    pool.utf8 i = .ok text := by
  rw [utf8, entry_eq_ok (text?_eq_some.mp found)]
  rfl

theorem integer_eq_ok {pool : Pool} {i : Nat} {value : Int}
    (found : pool.constant? i = some (.integer value)) :
    pool.integer i = .ok value := by
  rw [integer, entry_eq_ok found]
  rfl

theorem long_eq_ok {pool : Pool} {i : Nat} {value : Int}
    (found : pool.constant? i = some (.long value)) :
    pool.long i = .ok value := by
  rw [long, entry_eq_ok found]
  rfl

theorem single_eq_ok {pool : Pool} {i : Nat} {value : Decimal.Double}
    (found : pool.constant? i = some (.single value)) :
    pool.single i = .ok value := by
  rw [single, entry_eq_ok found]
  rfl

theorem double_eq_ok {pool : Pool} {i : Nat} {value : Decimal.Double}
    (found : pool.constant? i = some (.double value)) :
    pool.double i = .ok value := by
  rw [double, entry_eq_ok found]
  rfl

theorem className_eq_ok {pool : Pool} {i : Nat} {name : String}
    (found : pool.class? i = some name) :
    pool.className i = .ok name := by
  unfold class? at found
  split at found
  · rename_i here
    rw [className, entry_eq_ok here]
    exact utf8_eq_ok found
  · cases found

theorem nameAndType_eq_ok {pool : Pool} {i : Nat} {pair : String × String}
    (found : pool.nameAndType? i = some pair) :
    pool.nameAndType i = .ok pair := by
  unfold nameAndType? at found
  split at found
  · rename_i name descriptor here
    simp only [Option.bind_eq_bind, Option.bind_eq_some_iff, Option.pure_def,
      Option.some.injEq] at found
    obtain ⟨text, named, other, described, rfl⟩ := found
    rw [nameAndType, entry_eq_ok here]
    change (do return (← pool.utf8 name, ← pool.utf8 descriptor)) = _
    rw [utf8_eq_ok named, utf8_eq_ok described]
    rfl
  · cases found

theorem member_eq_ok {pool : Pool} {owner nat : Nat} {found : String × String × String}
    (known : pool.member? owner nat = some found) : pool.member owner nat = .ok found := by
  simp only [member?, Option.bind_eq_bind, Option.bind_eq_some_iff, Option.pure_def,
    Option.some.injEq] at known
  obtain ⟨pair, paired, name, named, rfl⟩ := known
  rw [member, nameAndType_eq_ok paired]
  change (do return (← pool.className owner, pair.1, pair.2)) = _
  rw [className_eq_ok named]
  rfl

theorem memberRef_eq_ok {pool : Pool} {i : Nat} {found : String × String × String}
    (known : pool.memberRef? i = some found) : pool.memberRef i = .ok found := by
  unfold memberRef? at known
  split at known
  case h_4 => cases known
  all_goals
    rename_i here
    rw [memberRef, entry_eq_ok here]
    exact member_eq_ok known

theorem methodRef_eq_ok {pool : Pool} {i : Nat} {ref : MethodRef}
    (known : pool.methodRef? i = some ref) :
    pool.methodRef i = .ok ref := by
  unfold methodRef? at known
  split at known
  case h_3 => cases known
  all_goals
    rename_i owner nat here
    obtain ⟨found, member, rfl⟩ := Option.map_eq_some_iff.mp known
    rw [methodRef, entry_eq_ok here]
    change pool.member owner nat >>= _ = _
    rw [member_eq_ok member]
    rfl

theorem invokeDynamic_eq_ok {pool : Pool} {i : Nat} {pair : String × String}
    (known : pool.callSite? i = some pair) :
    pool.invokeDynamic i = .ok pair := by
  unfold callSite? at known
  split at known
  · rename_i here
    rw [invokeDynamic, entry_eq_ok here]
    exact nameAndType_eq_ok known
  · cases known

theorem literal_eq_ok {pool : Pool} {i : Nat} {value : Literal}
    (known : pool.literal? i = some value) :
    pool.literal i = .ok value := by
  cases here : pool.constant? i with
  | none =>
    rw [literal?, here] at known
    cases known
  | some constant =>
    rw [literal?, here] at known
    rw [literal, entry_eq_ok here]
    cases constant with
    | string n | classRef n | methodType n =>
      obtain ⟨text, named, rfl⟩ := Option.map_eq_some_iff.mp known
      change pool.utf8 n >>= _ = _
      rw [utf8_eq_ok named]
      rfl
    | dynamic _ nat =>
      obtain ⟨pair, paired, rfl⟩ := Option.map_eq_some_iff.mp known
      change pool.nameAndType nat >>= _ = _
      rw [nameAndType_eq_ok paired]
      rfl
    | _ =>
      cases known
      rfl

theorem constant?_of_entry {pool : Pool} {i : Nat} {constant : Constant}
    (found : pool.entry i = .ok constant) :
    pool.constant? i = some constant := by
  unfold entry at found
  split at found
  · rename_i here
    cases found
    exact here
  · cases found

theorem text?_of_utf8 {pool : Pool} {i : Nat} {text : String} (found : pool.utf8 i = .ok text) :
    pool.text? i = some text := by
  obtain ⟨constant, here, body⟩ := bind_eq_ok.mp found
  rw [text?, constant?_of_entry here]
  cases constant with
  | utf8 other => rw [pure_eq_ok.mp body]
  | _ => cases body

theorem class?_of_className {pool : Pool} {i : Nat} {name : String}
    (found : pool.className i = .ok name) :
    pool.class? i = some name := by
  obtain ⟨constant, here, body⟩ := bind_eq_ok.mp found
  rw [class?, constant?_of_entry here]
  cases constant with
  | classRef n => exact text?_of_utf8 body
  | _ => cases body

theorem nameAndType?_of_nameAndType {pool : Pool} {i : Nat} {pair : String × String}
    (found : pool.nameAndType i = .ok pair) : pool.nameAndType? i = some pair := by
  obtain ⟨constant, here, body⟩ := bind_eq_ok.mp found
  rw [nameAndType?, constant?_of_entry here]
  cases constant with
  | nameAndType n d =>
    obtain ⟨name, named, body⟩ := bind_eq_ok.mp body
    obtain ⟨descriptor, described, finish⟩ := bind_eq_ok.mp body
    simp [text?_of_utf8 named, text?_of_utf8 described, pure_eq_ok.mp finish]
  | _ => cases body

theorem member?_of_member {pool : Pool} {owner nat : Nat} {found : String × String × String}
    (known : pool.member owner nat = .ok found) : pool.member? owner nat = some found := by
  obtain ⟨pair, paired, body⟩ := bind_eq_ok.mp known
  obtain ⟨name, named, finish⟩ := bind_eq_ok.mp body
  simp [member?, nameAndType?_of_nameAndType paired, class?_of_className named,
    ← pure_eq_ok.mp finish]

theorem memberRef?_of_memberRef {pool : Pool} {i : Nat} {found : String × String × String}
    (known : pool.memberRef i = .ok found) : pool.memberRef? i = some found := by
  obtain ⟨constant, here, body⟩ := bind_eq_ok.mp known
  rw [memberRef?, constant?_of_entry here]
  cases constant with
  | field owner nat | method owner nat | interfaceMethod owner nat => exact member?_of_member body
  | _ => cases body

theorem methodRef?_of_methodRef {pool : Pool} {i : Nat} {ref : MethodRef}
    (known : pool.methodRef i = .ok ref) :
    pool.methodRef? i = some ref := by
  obtain ⟨constant, here, body⟩ := bind_eq_ok.mp known
  rw [methodRef?, constant?_of_entry here]
  cases constant with
  | method owner nat | interfaceMethod owner nat =>
    obtain ⟨found, member, finish⟩ := bind_eq_ok.mp body
    simp [member?_of_member member, ← pure_eq_ok.mp finish]
  | _ => cases body

theorem callSite?_of_invokeDynamic {pool : Pool} {i : Nat} {pair : String × String}
    (known : pool.invokeDynamic i = .ok pair) : pool.callSite? i = some pair := by
  obtain ⟨constant, here, body⟩ := bind_eq_ok.mp known
  rw [callSite?, constant?_of_entry here]
  cases constant with
  | invokeDynamic bootstrap nat => exact nameAndType?_of_nameAndType body
  | _ => cases body

theorem literal?_of_literal {pool : Pool} {i : Nat} {value : Literal}
    (known : pool.literal i = .ok value) :
    pool.literal? i = some value := by
  obtain ⟨constant, here, body⟩ := bind_eq_ok.mp known
  rw [literal?, constant?_of_entry here]
  cases constant with
  | string n | classRef n | methodType n =>
    obtain ⟨text, named, finish⟩ := bind_eq_ok.mp body
    simp [text?_of_utf8 named, ← pure_eq_ok.mp finish]
  | dynamic bootstrap nat =>
    obtain ⟨pair, paired, finish⟩ := bind_eq_ok.mp body
    simp [nameAndType?_of_nameAndType paired, ← pure_eq_ok.mp finish]
  | _ =>
    cases body
    rfl

end CallAtlas.ClassFile.Pool
