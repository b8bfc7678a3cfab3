import CallAtlas.Proofs.WalkOrder
import Mathlib.Data.List.Nodup
import Mathlib.Logic.Relation

/-!
Searches with a list of work. What a search visits does not depend on the order of its work: it is
what can be reached from where it starts. Both searches of a call graph are such searches.
-/

namespace CallAtlas

open Relation

/-- A search that follows `next`. It takes up the first method of its work; where that was not
visited, everything next to it that was not visited joins the work, at any places. -/
inductive Explores (next : MethodId → MethodId → Prop) :
    (visited work result : List MethodId) → Prop where
  | finish (visited : List MethodId) : Explores next visited [] visited
  | skip {visited work result : List MethodId} {m : MethodId} (seen : m ∈ visited)
      (rest : Explores next visited work result) : Explores next visited (m :: work) result
  | visit {visited work more result : List MethodId} {m : MethodId} (fresh : m ∉ visited)
      (joined : ∀ x, x ∈ more ↔ x ∈ work ∨ next m x ∧ x ∉ visited ++ [m])
      (rest : Explores next (visited ++ [m]) more result) : Explores next visited (m :: work) result

namespace Explores

variable {next : MethodId → MethodId → Prop} {visited work result : List MethodId}

theorem keeps (run : Explores next visited work result) : visited <+: result := by
  induction run with
  | finish visited => exact List.prefix_rfl
  | skip _ _ ih => exact ih
  | visit _ _ _ ih => exact (List.prefix_append _ _).trans ih

theorem nodup (run : Explores next visited work result) (distinct : visited.Nodup) :
    result.Nodup := by
  induction run with
  | finish visited => exact distinct
  | skip _ _ ih => exact ih distinct
  | visit fresh _ _ ih =>
    apply ih
    apply List.Nodup.append distinct (List.nodup_singleton _)
    simpa using fresh

theorem sound (run : Explores next visited work result) {m : MethodId} (member : m ∈ result) :
    m ∈ visited ∨ ∃ start ∈ work, ReflTransGen next start m := by
  induction run with
  | finish visited => exact .inl member
  | skip _ _ ih =>
    rcases ih member with old | ⟨start, listed, path⟩
    · exact .inl old
    · exact .inr ⟨start, List.mem_cons_of_mem _ listed, path⟩
  | @visit visited work more result first _ joined _ ih =>
    rcases ih member with old | ⟨start, listed, path⟩
    · rcases List.mem_append.mp old with before | here
      · exact .inl before
      · rw [List.mem_singleton] at here
        exact .inr ⟨first, List.mem_cons_self, here ▸ .refl⟩
    · rcases (joined start).mp listed with waiting | ⟨step, _⟩
      · exact .inr ⟨start, List.mem_cons_of_mem _ waiting, path⟩
      · exact .inr ⟨first, List.mem_cons_self, .head step path⟩

theorem closed (run : Explores next visited work result)
    (covered : ∀ v ∈ visited, ∀ x, next v x → x ∈ visited ∨ x ∈ work) :
    work ⊆ result ∧ ∀ v ∈ result, ∀ x, next v x → x ∈ result := by
  induction run with
  | finish visited =>
    refine ⟨List.nil_subset _, ?_⟩
    intro v member x step
    exact (covered v member x step).resolve_right List.not_mem_nil
  | @skip visited work result first seen rest ih =>
    have still : ∀ v ∈ visited, ∀ x, next v x → x ∈ visited ∨ x ∈ work := by
      intro v member x step
      rcases covered v member x step with old | waiting
      · exact .inl old
      · rcases List.mem_cons.mp waiting with rfl | later
        · exact .inl seen
        · exact .inr later
    exact ⟨List.cons_subset.mpr ⟨rest.keeps.subset seen, (ih still).1⟩, (ih still).2⟩
  | @visit visited work more result first fresh joined rest ih =>
    have still : ∀ v ∈ visited ++ [first], ∀ x, next v x → x ∈ visited ++ [first] ∨ x ∈ more := by
      intro v member x step
      by_cases known : x ∈ visited ++ [first]
      · exact .inl known
      refine .inr ((joined x).mpr ?_)
      rw [List.mem_append, List.mem_singleton, not_or] at known
      rcases List.mem_append.mp member with old | here
      · have waiting := (covered v old x step).resolve_left known.1
        exact .inl ((List.mem_cons.mp waiting).resolve_left known.2)
      · rw [List.mem_singleton] at here
        refine .inr ⟨here ▸ step, ?_⟩
        simpa using known
    refine ⟨List.cons_subset.mpr ⟨?_, ?_⟩, (ih still).2⟩
    · exact rest.keeps.subset (List.mem_append_right visited List.mem_cons_self)
    · intro x waiting
      exact (ih still).1 ((joined x).mpr (.inl waiting))

theorem mem_iff {entry : MethodId} (run : Explores next [] [entry] result) (m : MethodId) :
    m ∈ result ↔ ReflTransGen next entry m := by
  constructor
  · intro member
    rcases run.sound member with old | ⟨start, listed, path⟩
    · cases old
    · rw [List.mem_singleton] at listed
      exact listed ▸ path
  · intro path
    obtain ⟨works, steps⟩ := run.closed (by simp)
    induction path with
    | refl => exact works List.mem_cons_self
    | tail _ step ih => exact steps _ ih _ step

theorem head?_eq {entry : MethodId} (run : Explores next [] [entry] result) :
    result.head? = some entry := by
  cases run with
  | skip seen _ => cases seen
  | visit _ _ rest =>
    obtain ⟨others, split⟩ := rest.keeps
    rw [← split]
    rfl

end Explores

namespace CallGraph

theorem reachFrom_explores (g : CallGraph) (visited queue : List MethodId) :
    Explores (fun m callee => callee ∈ g.callees m) visited queue (g.reachFrom visited queue) := by
  fun_induction reachFrom g visited queue with
  | case1 visited => exact .finish visited
  | case2 visited m queue seen ih => exact .skip seen ih
  | case3 visited m queue fresh visited' ih =>
    refine .visit fresh ?_ ih
    intro x
    simp [visited']

theorem walkFrom_explores (g : CallGraph) (prefixes : List String) (visited stack : List MethodId) :
    Explores (fun m callee => callee ∈ g.followed prefixes m) visited stack
      (g.walkFrom prefixes visited stack) := by
  fun_induction walkFrom g prefixes visited stack with
  | case1 visited => exact .finish visited
  | case2 visited m stack seen ih => exact .skip seen ih
  | case3 visited m stack fresh visited' ih =>
    refine .visit fresh ?_ ih
    intro x
    rw [nextCallees_eq, List.mem_append, List.mem_filter, decide_eq_true_eq]
    exact or_comm

end CallGraph

end CallAtlas
