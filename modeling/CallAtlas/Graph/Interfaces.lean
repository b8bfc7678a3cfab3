import CallAtlas.ClassFile.CompiledType
import CallAtlas.Graph.Basic
import CallAtlas.Log

/-!
Calls through interfaces: a call of an interface's method may reach that method in every class that
declares the interface.
-/

namespace CallAtlas

open ClassFile

abbrev Implementers := Table String (List String)

def implementers (types : List CompiledType) : Implementers :=
  types.foldl (fun map type => type.interfaces.foldl
    (fun map interface => map.modify interface [] (insertNew type.name)) map) []

def interfaceTargets (map : Implementers) (callee : MethodId) : List MethodId :=
  ((map.get? (MethodId.owner callee)).getD []).map fun type => type ++ "." ++ MethodId.member callee

def expandRow (map : Implementers) (callees : List MethodId) : List MethodId :=
  (callees.flatMap (interfaceTargets map)).foldl (fun row target => insertNew target row) callees

structure Resolved where
  graph : CallGraph
  added : Nat
  log : Log

/-- Adds to each edge those to the implementers of the callee's interface. -/
def CallGraph.resolve (g : CallGraph) (map : Implementers) : Resolved :=
  let rows := g.rows.map fun row => (row.1, expandRow map row.2)
  let count (rows : Table MethodId (List MethodId)) := (rows.flatMap Prod.snd).length
  let added := count rows - count g.rows
  ⟨⟨rows⟩, added, [infoLog s!"Interface resolution added {added} edges"]⟩

end CallAtlas
