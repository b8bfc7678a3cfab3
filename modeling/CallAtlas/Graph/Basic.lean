import CallAtlas.MethodId
import CallAtlas.Table
import CallAtlas.Text.Order

/-!
Call graphs: which methods call which. Callers stand in the order of their first calls; several
calls from one method to another are one edge.
-/

namespace CallAtlas

def insertNew {α : Type} [DecidableEq α] (x : α) (xs : List α) : List α :=
  if x ∈ xs then xs else xs ++ [x]

def distinct {α : Type} [DecidableEq α] (xs : List α) : List α :=
  xs.foldl (fun seen x => insertNew x seen) []

structure CallGraph where
  rows : Table MethodId (List MethodId)
  deriving DecidableEq, Repr

namespace CallGraph

def empty : CallGraph := ⟨[]⟩

def addEdge (g : CallGraph) (caller callee : MethodId) : CallGraph :=
  ⟨g.rows.modify caller [] (insertNew callee)⟩

def addEdges (g : CallGraph) (edges : List (MethodId × MethodId)) : CallGraph :=
  edges.foldl (fun g edge => g.addEdge edge.1 edge.2) g

def ofRows (rows : List (MethodId × List MethodId)) : CallGraph :=
  ⟨Table.ofPairs (rows.map fun row => (row.1, distinct row.2))⟩

def callees (g : CallGraph) (method : MethodId) : List MethodId := (g.rows.get? method).getD []

def callers (g : CallGraph) (method : MethodId) : List MethodId :=
  (g.rows.filter fun row => method ∈ row.2).map Prod.fst

def methods (g : CallGraph) : List MethodId := g.rows.keys

def edges (g : CallGraph) : List (MethodId × MethodId) :=
  g.rows.flatMap fun row => row.2.map fun callee => (row.1, callee)

def size (g : CallGraph) : Nat := g.rows.length

def contains (g : CallGraph) (method : MethodId) : Bool := method ∈ g.methods

def sortedRows (g : CallGraph) : List (MethodId × List MethodId) :=
  (g.rows.map fun row => (row.1, Text.sortTexts row.2)).mergeSort fun a b => a.1 ≤ b.1

end CallGraph

end CallAtlas
