import RowFilter.QueryError

/-!
# Attempts

An attempt works on a state and may fail.  What it did to the state before it
failed stays done.
-/

namespace RowFilter

/-- A step on a state that may fail, and keeps the state if it does. -/
structure Attempt (σ α : Type) where
  run : σ → Except QueryError α × σ

namespace Attempt

variable {σ τ α β : Type}

instance : Monad (Attempt σ) where
  pure a := ⟨fun s => (.ok a, s)⟩
  bind x f := ⟨fun s =>
    match x.run s with
    | (.ok a, t) => (f a).run t
    | (.error e, t) => (.error e, t)⟩

/-- Fails. -/
def fail (e : QueryError) : Attempt σ α :=
  ⟨fun s => (.error e, s)⟩

/-- A result that does not depend on the state. -/
def ofExcept (result : Except QueryError α) : Attempt σ α :=
  ⟨fun s => (result, s)⟩

/-- A step that cannot fail. -/
def ofState (step : σ → α × σ) : Attempt σ α :=
  ⟨fun s =>
    let result := step s
    (.ok result.1, result.2)⟩

/-- The state. -/
def state : Attempt σ σ :=
  ⟨fun s => (.ok s, s)⟩

/-- Changes the state. -/
def update (f : σ → σ) : Attempt σ Unit :=
  ⟨fun s => (.ok (), f s)⟩

/-- An attempt on a part of a larger state. -/
def focus (get : σ → τ) (set : τ → σ → σ) (step : Attempt τ α) : Attempt σ α :=
  ⟨fun s =>
    let result := step.run (get s)
    (result.1, set result.2 s)⟩

@[ext] theorem ext_run
    {x y : Attempt σ α}
    (h : ∀ s, x.run s = y.run s) :
    x = y := by
  cases x
  cases y
  simp only [mk.injEq]
  exact funext h

@[simp] theorem run_pure
    (a : α) (s : σ) :
    (pure a : Attempt σ α).run s = (.ok a, s) :=
  rfl

theorem run_bind
    (x : Attempt σ α) (f : α → Attempt σ β) (s : σ) :
    (x >>= f).run s =
      match x.run s with
      | (.ok a, t) => (f a).run t
      | (.error e, t) => (.error e, t) :=
  rfl

/-- After a success the next step runs on the state that was left. -/
theorem run_bind_of_ok
    {x : Attempt σ α} {s t : σ} {a : α}
    (f : α → Attempt σ β)
    (h : x.run s = (.ok a, t)) :
    (x >>= f).run s = (f a).run t := by
  rw [run_bind, h]

/-- After a failure no further step runs. -/
theorem run_bind_of_error
    {x : Attempt σ α} {s t : σ} {e : QueryError}
    (f : α → Attempt σ β)
    (h : x.run s = (.error e, t)) :
    (x >>= f).run s = (.error e, t) := by
  rw [run_bind, h]

@[simp] theorem run_fail
    (e : QueryError) (s : σ) :
    (fail e : Attempt σ α).run s = (.error e, s) :=
  rfl

@[simp] theorem run_ofExcept
    (result : Except QueryError α) (s : σ) :
    (ofExcept result : Attempt σ α).run s = (result, s) :=
  rfl

@[simp] theorem run_ofState
    (step : σ → α × σ) (s : σ) :
    (ofState step).run s = (.ok (step s).1, (step s).2) :=
  rfl

@[simp] theorem run_state
    (s : σ) :
    (state : Attempt σ σ).run s = (.ok s, s) :=
  rfl

@[simp] theorem run_update
    (f : σ → σ) (s : σ) :
    (update f).run s = (.ok (), f s) :=
  rfl

@[simp] theorem run_focus
    (get : σ → τ) (set : τ → σ → σ) (step : Attempt τ α) (s : σ) :
    (focus get set step).run s =
      ((step.run (get s)).1, set (step.run (get s)).2 s) :=
  rfl

end Attempt
end RowFilter
