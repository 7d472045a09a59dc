import RowFilter.Compilation.Progress

/-!
# Reasoning about attempts

Three judgments, each with one rule for every way of building an attempt.

* `Ensures P x Q`: from a state that meets `P`, if `x` succeeds then its result
  and the state it leaves meet `Q`.
* `Gives x Q`: all results of `x` have the property `Q`.
* `Relates S x y Q`: from states that `S` relates, `x` and `y` fail with the same
  error, or both succeed and `Q` relates their results and the states they leave.

The rules are applied along the definitions of the steps of a compilation, so no
proof about a step looks at its states one by one.
-/

namespace RowFilter

/-- Two computations in a row succeed if the first does, and the second does on
its result. -/
theorem exists_of_bind_ok
    {ε α β : Type} {x : Except ε α} {f : α → Except ε β} {b : β}
    (h : (x >>= f) = .ok b) :
    ∃ a, x = .ok a ∧ f a = .ok b := by
  cases x with
  | error e =>
      cases h
  | ok a =>
      exact ⟨a, rfl, h⟩

theorem exists_of_isOk
    {ε α : Type} {x : Except ε α}
    (h : x.isOk = true) :
    ∃ a, x = .ok a := by
  cases x with
  | error e => cases h
  | ok a => exact ⟨a, rfl⟩

/-- A result on which a test can be made is one that passes it. -/
theorem exists_of_any_toOption
    {ε α : Type} {x : Except ε α} {test : α → Bool}
    (h : x.toOption.any test = true) :
    ∃ a, x = .ok a ∧ test a = true := by
  cases x with
  | error e => cases h
  | ok a => exact ⟨a, rfl, h⟩

/-- Two results: the same error, or values that `Q` relates. -/
inductive SameOutcome {α β : Type} (Q : α → β → Prop) :
    Except QueryError α → Except QueryError β → Prop
  | ok {a : α} {b : β} (h : Q a b) : SameOutcome Q (.ok a) (.ok b)
  | error (e : QueryError) : SameOutcome Q (.error e) (.error e)

theorem SameOutcome.bind
    {α β γ δ : Type} {R : α → β → Prop} {Q : γ → δ → Prop} {x : Except QueryError α}
    {y : Except QueryError β} {f : α → Except QueryError γ} {g : β → Except QueryError δ}
    (h : SameOutcome R x y) (hfg : ∀ a b, R a b → SameOutcome Q (f a) (g b)) :
    SameOutcome Q (x >>= f) (y >>= g) := by
  cases h with
  | ok hR => exact hfg _ _ hR
  | error e => exact .error e

theorem SameOutcome.exists_or
    {α β : Type} {Q : α → β → Prop} {x : Except QueryError α} {y : Except QueryError β}
    (h : SameOutcome Q x y) :
    (∃ e, x = .error e ∧ y = .error e) ∨ ∃ a b, x = .ok a ∧ y = .ok b ∧ Q a b := by
  cases h with
  | ok hQ => exact .inr ⟨_, _, rfl, rfl, hQ⟩
  | error e => exact .inl ⟨e, rfl, rfl⟩

namespace Attempt

variable {σ τ α β γ δ : Type}

theorem id_map
    (x : Attempt σ α) :
    id <$> x = x := by
  ext s : 1
  show (x >>= pure ∘ id).run s = x.run s
  rw [run_bind]
  cases x.run s with
  | mk result t => cases result <;> rfl

theorem bind_assoc
    (x : Attempt σ α) (f : α → Attempt σ β) (g : β → Attempt σ γ) :
    x >>= f >>= g = x >>= fun a => f a >>= g := by
  ext s : 1
  simp only [run_bind]
  cases x.run s with
  | mk result t => cases result <;> rfl

instance : LawfulMonad (Attempt σ) :=
  LawfulMonad.mk' _ id_map (fun _ _ => rfl) bind_assoc

section Unary

/-- If the attempt succeeds from a state that meets `P`, then `Q` holds of its
result and of the state it leaves. -/
def Ensures (P : σ → Prop) (x : Attempt σ α) (Q : α → σ → Prop) : Prop :=
  ∀ s, P s → ∀ a t, x.run s = (.ok a, t) → Q a t

variable {P : σ → Prop} {Q R : α → σ → Prop}

theorem Ensures.mono
    {x : Attempt σ α}
    (h : Ensures P x R) (hQ : ∀ a s, R a s → Q a s) :
    Ensures P x Q := by
  intro s hs a t hrun
  exact hQ a t (h s hs a t hrun)

theorem Ensures.weaken
    {P' : σ → Prop} {x : Attempt σ α}
    (h : Ensures P x Q) (hP : ∀ s, P' s → P s) :
    Ensures P' x Q := by
  intro s hs
  exact h s (hP s hs)

theorem Ensures.and
    {P' : σ → Prop} {x : Attempt σ α}
    (h : Ensures P x Q) (h' : Ensures P' x R) :
    Ensures (fun s => P s ∧ P' s) x fun a s => Q a s ∧ R a s := by
  intro s hs a t hrun
  exact ⟨h s hs.1 a t hrun, h' s hs.2 a t hrun⟩

theorem ensures_pure
    {a : α}
    (h : ∀ s, P s → Q a s) :
    Ensures P (pure a) Q := by
  intro s hs b t hrun
  simp only [run_pure, Prod.mk.injEq, Except.ok.injEq] at hrun
  obtain ⟨rfl, rfl⟩ := hrun
  exact h s hs

theorem ensures_fail
    (e : QueryError) :
    Ensures P (fail e : Attempt σ α) Q := by
  intro s _ a t hrun
  simp at hrun

theorem ensures_ofExcept
    {result : Except QueryError α}
    (h : ∀ s a, P s → result = .ok a → Q a s) :
    Ensures P (ofExcept result) Q := by
  intro s hs a t hrun
  simp only [run_ofExcept, Prod.mk.injEq] at hrun
  obtain ⟨hresult, rfl⟩ := hrun
  exact h s a hs hresult

theorem ensures_ofState
    {step : σ → α × σ}
    (h : ∀ s, P s → Q (step s).1 (step s).2) :
    Ensures P (ofState step) Q := by
  intro s hs a t hrun
  simp only [run_ofState, Prod.mk.injEq, Except.ok.injEq] at hrun
  obtain ⟨rfl, rfl⟩ := hrun
  exact h s hs

theorem ensures_state
    {Q : σ → σ → Prop}
    (h : ∀ s, P s → Q s s) :
    Ensures P state Q := by
  intro s hs a t hrun
  simp only [run_state, Prod.mk.injEq, Except.ok.injEq] at hrun
  obtain ⟨rfl, rfl⟩ := hrun
  exact h s hs

theorem ensures_update
    {f : σ → σ} {Q : Unit → σ → Prop}
    (h : ∀ s, P s → Q () (f s)) :
    Ensures P (update f) Q := by
  intro s hs a t hrun
  simp only [run_update, Prod.mk.injEq] at hrun
  obtain ⟨-, rfl⟩ := hrun
  exact h s hs

/-- What the first step ensures is what the second one starts from. -/
theorem Ensures.bind
    {x : Attempt σ α} {f : α → Attempt σ β} {Q : β → σ → Prop}
    (hx : Ensures P x R) (hf : ∀ a, Ensures (R a) (f a) Q) :
    Ensures P (x >>= f) Q := by
  intro s hs b t hrun
  cases hstep : x.run s with
  | mk result u =>
      cases result with
      | ok a =>
          rw [run_bind_of_ok f hstep] at hrun
          exact hf a u (hx s hs a u hstep) b t hrun
      | error e =>
          rw [run_bind_of_error f hstep] at hrun
          simp at hrun

/-- An attempt on a part of the state, with what is to hold of the whole. -/
theorem ensures_focus
    {get : σ → τ} {set : τ → σ → σ} {step : Attempt τ α}
    (h : ∀ s, P s → Ensures (fun t => t = get s) step fun a t => Q a (set t s)) :
    Ensures P (focus get set step) Q := by
  intro s hs a t hrun
  simp only [run_focus, Prod.mk.injEq] at hrun
  obtain ⟨hresult, rfl⟩ := hrun
  exact h s hs (get s) rfl a _ (Prod.ext hresult rfl)

end Unary

section Results

/-- Every result of the attempt has a property, whatever state it starts from. -/
def Gives (x : Attempt σ α) (Q : α → Prop) : Prop :=
  ∀ s a t, x.run s = (.ok a, t) → Q a

variable {Q : α → Prop}

theorem gives_pure
    {a : α}
    (h : Q a) :
    Gives (pure a : Attempt σ α) Q := by
  intro s b t hrun
  cases hrun
  exact h

theorem gives_fail
    (e : QueryError) :
    Gives (fail e : Attempt σ α) Q := by
  intro s a t hrun
  cases hrun

theorem gives_ofExcept
    {result : Except QueryError α}
    (h : ∀ a, result = .ok a → Q a) :
    Gives (ofExcept result : Attempt σ α) Q := by
  intro s a t hrun
  exact h a (congrArg Prod.fst hrun)

theorem Gives.bind
    {x : Attempt σ α} {f : α → Attempt σ β} {R : β → Prop}
    (hx : Gives x Q) (hf : ∀ a, Q a → Gives (f a) R) :
    Gives (x >>= f) R := by
  intro s b t hrun
  cases hstep : x.run s with
  | mk result u =>
      cases result with
      | ok a =>
          rw [run_bind_of_ok f hstep] at hrun
          exact hf a (hx s a u hstep) u b t hrun
      | error e =>
          rw [run_bind_of_error f hstep] at hrun
          cases hrun

/-- What the first step gives does not matter. -/
theorem gives_after
    {x : Attempt σ α} {f : α → Attempt σ β} {R : β → Prop}
    (hf : ∀ a, Gives (f a) R) :
    Gives (x >>= f) R :=
  Gives.bind (Q := fun _ => True) (fun _ _ _ _ => trivial) fun a _ => hf a

theorem Gives.focus
    {step : Attempt τ α}
    (h : Gives step Q) (get : σ → τ) (set : τ → σ → σ) :
    Gives (Attempt.focus get set step) Q := by
  intro s a t hrun
  rw [run_focus, Prod.mk.injEq] at hrun
  exact h (get s) a _ (Prod.ext hrun.1 rfl)

end Results

section Binary

/-- Two outcomes: the same error, or two successes that `Q` relates. -/
inductive Agree (Q : α → β → σ → τ → Prop) :
    Except QueryError α × σ → Except QueryError β × τ → Prop where
  | ok {a : α} {b : β} {s : σ} {t : τ} (h : Q a b s t) : Agree Q (.ok a, s) (.ok b, t)
  | error (e : QueryError) (s : σ) (t : τ) : Agree Q (.error e, s) (.error e, t)

/-- From states that `S` relates the attempts have outcomes that agree. -/
def Relates (S : σ → τ → Prop) (x : Attempt σ α) (y : Attempt τ β)
    (Q : α → β → σ → τ → Prop) : Prop :=
  ∀ s t, S s t → Agree Q (x.run s) (y.run t)

variable {S : σ → τ → Prop} {Q R : α → β → σ → τ → Prop}

theorem Agree.mono
    {u : Except QueryError α × σ} {v : Except QueryError β × τ}
    (h : Agree R u v) (hQ : ∀ a b s t, R a b s t → Q a b s t) :
    Agree Q u v := by
  cases h with
  | ok hR =>
      exact .ok (hQ _ _ _ _ hR)
  | error e s t =>
      exact .error e s t

theorem Relates.mono
    {x : Attempt σ α} {y : Attempt τ β}
    (h : Relates S x y R) (hQ : ∀ a b s t, R a b s t → Q a b s t) :
    Relates S x y Q := by
  intro s t hst
  exact (h s t hst).mono hQ

theorem relates_pure
    {a : α} {b : β}
    (h : ∀ s t, S s t → Q a b s t) :
    Relates S (pure a) (pure b) Q := by
  intro s t hst
  exact .ok (h s t hst)

theorem relates_fail
    (e : QueryError) :
    Relates S (fail e : Attempt σ α) (fail e : Attempt τ β) Q := by
  intro s t _
  exact .error e s t

/-- The same result on both sides. -/
theorem relates_ofExcept
    {result : Except QueryError α} {Q : α → α → σ → τ → Prop}
    (h : ∀ a s t, result = .ok a → S s t → Q a a s t) :
    Relates S (ofExcept result) (ofExcept result) Q := by
  intro s t hst
  cases result with
  | ok a =>
      exact .ok (h a s t rfl hst)
  | error e =>
      exact .error e s t

/-- Results with the same outcome. -/
theorem relates_of_sameOutcome
    {x : Except QueryError α} {y : Except QueryError β} {R : α → β → Prop}
    (h : SameOutcome R x y) (hQ : ∀ a b s t, R a b → S s t → Q a b s t) :
    Relates S (ofExcept x) (ofExcept y) Q := by
  intro s t hst
  cases h with
  | ok hR => exact .ok (hQ _ _ s t hR hst)
  | error e => exact .error e s t

theorem relates_update
    {f : σ → σ} {g : τ → τ} {Q : Unit → Unit → σ → τ → Prop}
    (h : ∀ s t, S s t → Q () () (f s) (g t)) :
    Relates S (update f) (update g) Q := by
  intro s t hst
  exact .ok (h s t hst)

/-- Related steps in a row; the second ones start from what the first ones
leave. -/
theorem Relates.bind
    {x : Attempt σ α} {y : Attempt τ β} {f : α → Attempt σ γ} {g : β → Attempt τ δ}
    {Q : γ → δ → σ → τ → Prop}
    (hxy : Relates S x y R) (hfg : ∀ a b, Relates (R a b) (f a) (g b) Q) :
    Relates S (x >>= f) (y >>= g) Q := by
  intro s t hst
  have hstep := hxy s t hst
  rw [run_bind, run_bind]
  generalize x.run s = u at hstep ⊢
  generalize y.run t = v at hstep ⊢
  cases hstep with
  | ok hR =>
      exact hfg _ _ _ _ hR
  | error e s t =>
      exact .error e s t

/-- Related attempts on parts of the states. -/
theorem relates_focus
    {σ' τ' : Type} {get : σ → σ'} {set : σ' → σ → σ} {get' : τ → τ'} {set' : τ' → τ → τ}
    {x : Attempt σ' α} {y : Attempt τ' β}
    (h : ∀ s t, S s t →
      Relates (fun s' t' => s' = get s ∧ t' = get' t) x y
        fun a b s' t' => Q a b (set s' s) (set' t' t)) :
    Relates S (focus get set x) (focus get' set' y) Q := by
  intro s t hst
  have hstep := h s t hst (get s) (get' t) ⟨rfl, rfl⟩
  rw [run_focus, run_focus]
  generalize x.run (get s) = u at hstep ⊢
  generalize y.run (get' t) = v at hstep ⊢
  cases hstep with
  | ok hQ =>
      exact .ok hQ
  | error e s' t' =>
      exact .error e _ _

end Binary

section InStep

/-- From the same state both attempts fail with the same error, or reach the same
state with results that `Q` relates. -/
def InStep (Q : α → β → Prop) (x : Attempt σ α) (y : Attempt σ β) : Prop :=
  Relates Eq x y fun a b s t => Q a b ∧ s = t

variable {Q : α → β → Prop}

theorem inStep_pure
    {a : α} {b : β}
    (h : Q a b) :
    InStep Q (pure a : Attempt σ α) (pure b) :=
  relates_pure fun _ _ hst => ⟨h, hst⟩

theorem inStep_fail
    (e : QueryError) :
    InStep Q (fail e : Attempt σ α) (fail e) :=
  relates_fail e

theorem inStep_ofExcept
    {x : Except QueryError α} {y : Except QueryError β}
    (h : SameOutcome Q x y) :
    InStep Q (ofExcept x : Attempt σ α) (ofExcept y) :=
  relates_of_sameOutcome h fun _ _ _ _ hab hst => ⟨hab, hst⟩

theorem inStep_same
    {Q : α → α → Prop}
    (h : ∀ a, Q a a) (x : Attempt σ α) :
    InStep Q x x := by
  rintro s _ rfl
  cases hrun : x.run s with
  | mk result t =>
      cases result with
      | ok a => exact .ok ⟨h a, rfl⟩
      | error e => exact .error e t t

theorem InStep.bind
    {R : α → β → Prop} {Q : γ → δ → Prop} {x : Attempt σ α} {y : Attempt σ β}
    {f : α → Attempt σ γ} {g : β → Attempt σ δ}
    (hxy : InStep R x y) (hfg : ∀ a b, R a b → InStep Q (f a) (g b)) :
    InStep Q (x >>= f) (y >>= g) := by
  refine Relates.bind hxy fun a b s t h => ?_
  exact hfg a b h.1 s t h.2

end InStep

end Attempt
end RowFilter
