/-!
Programs that act on a state and may fail.
-/

namespace CallAtlas

/-- A program on a state. What it changed before an error stays. -/
abbrev Fallible (ε σ : Type) := ExceptT ε (StateM σ)

namespace Fallible

variable {ε σ α β : Type}

def outcome (program : Fallible ε σ α) (s : σ) : Except ε α × σ := program.run.run s

def ofExcept (result : Except ε α) : Fallible ε σ α := ExceptT.mk (pure result)

@[simp] theorem outcome_bind (program : Fallible ε σ α) (next : α → Fallible ε σ β) (s : σ) :
    (program >>= next).outcome s = match program.outcome s with
      | (.ok a, s') => (next a).outcome s'
      | (.error e, s') => (.error e, s') := by
  simp only [outcome, ExceptT.run_bind, StateT.run_bind]
  rcases program.run.run s with ⟨_ | _, _⟩ <;> rfl

@[simp] theorem outcome_map (f : α → β) (program : Fallible ε σ α) (s : σ) :
    (f <$> program).outcome s = ((program.outcome s).1.map f, (program.outcome s).2) := by
  simp only [outcome, ExceptT.run_map, StateT.run_map]
  rfl

@[simp] theorem outcome_pure (a : α) (s : σ) : outcome (pure a : Fallible ε σ α) s = (.ok a, s) :=
  rfl

@[simp] theorem outcome_throw (e : ε) (s : σ) : outcome (throw e : Fallible ε σ α) s =
    (.error e, s) := rfl

@[simp] theorem outcome_get (s : σ) : outcome (get : Fallible ε σ σ) s = (.ok s, s) := rfl

@[simp] theorem outcome_modify (f : σ → σ) (s : σ) :
    outcome (modify f : Fallible ε σ Unit) s = (.ok (), f s) := rfl

@[simp] theorem outcome_ofExcept (result : Except ε α) (s : σ) :
    outcome (ofExcept result : Fallible ε σ α) s = (result, s) := rfl

end Fallible

end CallAtlas
