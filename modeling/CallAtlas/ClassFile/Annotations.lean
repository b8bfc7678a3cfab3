import CallAtlas.ClassFile.Pool
import CallAtlas.MethodId
import CallAtlas.Table

/-!
Annotations on types and methods.
-/

namespace CallAtlas.ClassFile

open Decimal

inductive Element where
  | int (value : Int)
  | float (value : Double)
  | bool (value : Bool)
  | char (unit : Nat)
  | text (value : String)
  | enum (type constant : String)
  | type (descriptor : String)
  | nested (type : String) (values : List (String × Element)) (visible : Bool)
  | array (items : List Element)
  deriving Inhabited

/-- An annotation with the values of its elements; a repeated element keeps its first place and
takes the last value. -/
structure AnnotationUse where
  type : String
  values : Table String Element
  visible : Bool

def AnnotationUse.simpleName (use : AnnotationUse) : String := CallAtlas.simpleName use.type

open Reader

def readUse (pool : Pool) (element : Reader Element) (visible : Bool) : Reader AnnotationUse := do
  let type ← pool.utf8 (← u2)
  let values ← counted do
    let name ← pool.utf8 (← u2)
    return (name, ← element)
  return ⟨descriptorName type, Table.ofPairs values, visible⟩

def charElement (value : Int) : Reader Element :=
  if 0 ≤ value ∧ value ≤ 0xFFFF then return .char value.toNat else fail (.charOutOfRange value)

/-- An element value nested at most `fuel` deep. Each level takes at least a byte, so that no value
lies deeper than there are bytes. -/
def readElement (pool : Pool) : (fuel : Nat) → Reader Element
  | 0 => fun c => .error (.truncated c.offset)
  | fuel + 1 => do
    let tag ← u1
    match Char.ofNat tag with
    | 'B' | 'I' | 'S' => return .int (← pool.integer (← u2))
    | 'C' => charElement (← pool.integer (← u2))
    | 'Z' => return .bool ((← pool.integer (← u2)) != 0)
    | 'J' => return .int (← pool.long (← u2))
    | 'F' => return .float (← pool.single (← u2))
    | 'D' => return .float (← pool.double (← u2))
    | 's' => return .text (← pool.utf8 (← u2))
    | 'e' =>
      let type ← pool.utf8 (← u2)
      return .enum (descriptorName type) (← pool.utf8 (← u2))
    | 'c' => return .type (← pool.utf8 (← u2))
    | '@' =>
      let use ← readUse pool (readElement pool fuel) true
      return .nested use.type use.values use.visible
    | '[' => return .array (← counted (readElement pool fuel))
    | _ => fail (.unknownElement tag)

def readUses (pool : Pool) (visible : Bool) (payload : List UInt8) :
    Except FormatError (List AnnotationUse) :=
  (counted (readUse pool (readElement pool payload.length) visible)).parse payload

end CallAtlas.ClassFile
