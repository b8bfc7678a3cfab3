import CallAtlas.Bytecode.Instruction
import CallAtlas.ClassFile.CompiledType
import CallAtlas.Fallible
import CallAtlas.Graph.Basic
import CallAtlas.Log

/-!
The calls in compiled code, and the edges they make.
-/

namespace CallAtlas

open ClassFile Bytecode

structure Call where
  caller : MethodId
  callee : MethodId
  deriving DecidableEq, Repr

def Call.ofRef (caller : MethodId) (ref : MethodRef) : Call :=
  ⟨caller, MethodId.ofOwner ref.owner ref.name⟩

def methodCalls (type : CompiledType) (method : CompiledMethod) : Decoded (List Call) := do
  match method.code with
  | none => return []
  | some code =>
    let instructions ← decode type.pool code
    let caller := MethodId.ofOwner type.name method.name
    return (instructions.filterMap Instruction.invoked?).map (Call.ofRef caller)

abbrev GraphRun := Fallible DecodeError CallGraph

structure AddedCalls where
  count : Nat
  log : Log

namespace GraphRun

def record (prefixes : List String) (call : Call) : GraphRun Unit :=
  if MethodId.isExcluded prefixes call.callee then return ()
  else modify fun g => g.addEdge call.caller call.callee

/-- Adds the calls of a type. Every method is decoded before the first edge is added. -/
def addType (prefixes : List String) (type : CompiledType) : GraphRun AddedCalls := do
  let decoded ← type.methods.mapM fun method => Fallible.ofExcept (methodCalls type method)
  let calls := decoded.flatten
  forM calls (record prefixes)
  return ⟨calls.length, [debugLog s!"{type.name}: {calls.length} call instructions"]⟩

end GraphRun

end CallAtlas
