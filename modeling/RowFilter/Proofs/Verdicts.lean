import RowFilter.Proofs.Acceptance
import RowFilter.Proofs.Routes

/-!
# Verdicts on comparisons

Whether a comparison is accepted, and whether it asks anything, is decided by the schema
alone.  Neither the joins that are planned nor the labels that were given out matter.

* `Attempt.DecidedBy`: an attempt succeeds exactly where a decision is made without the state.
* `Schema.comparisonVerdict`: the verdict on a comparison at the end of a path.
* `decidedBy_comparisonAccount`: the account of a comparison is built where it is accepted.
* `decidedBy_quantifierProbe`: a quantifier on a field finds the rows behind it where it is
  accepted.
-/

namespace RowFilter

/-! ## Decisions -/

namespace Attempt

variable {σ α β γ δ : Type} {P : σ → Prop}

theorem ofExcept_bind
    (x : Except QueryError α) (f : α → Except QueryError β) :
    (ofExcept (x >>= f) : Attempt σ β) = ofExcept x >>= fun a => ofExcept (f a) := by
  ext s : 1
  cases x with
  | error e => rfl
  | ok a => rfl

/-- From a state that meets `P` the attempt fails where the decision is none.  Where it is
some value the attempt succeeds, and `Q` relates its result to that value. -/
def DecidedBy (P : σ → Prop) (x : Attempt σ α) (d : Option β) (Q : α → β → σ → Prop) : Prop :=
  ∀ s, P s → (d = none ∧ ∃ e t, x.run s = (.error e, t)) ∨
    ∃ a b t, d = some b ∧ x.run s = (.ok a, t) ∧ Q a b t

theorem DecidedBy.mono
    {x : Attempt σ α} {d : Option β} {Q R : α → β → σ → Prop}
    (h : DecidedBy P x d R) (hQ : ∀ a b s, R a b s → Q a b s) :
    DecidedBy P x d Q := by
  intro s hs
  rcases h s hs with hnone | ⟨a, b, t, hd, hrun, hR⟩
  · exact .inl hnone
  · exact .inr ⟨a, b, t, hd, hrun, hQ a b t hR⟩

theorem decidedBy_pure
    {a : α} {b : β} {Q : α → β → σ → Prop}
    (h : ∀ s, P s → Q a b s) :
    DecidedBy P (pure a) (some b) Q := by
  intro s hs
  exact .inr ⟨a, b, s, rfl, rfl, h s hs⟩

theorem decidedBy_fail
    {Q : α → β → σ → Prop} (e : QueryError) :
    DecidedBy P (fail e) none Q := by
  intro s _
  exact .inl ⟨rfl, e, s, rfl⟩

theorem decidedBy_ofExcept
    (result : Except QueryError α) :
    DecidedBy P (ofExcept result) result.toOption fun a b s => a = b ∧ P s := by
  intro s hs
  cases result with
  | error e => exact .inl ⟨rfl, e, s, rfl⟩
  | ok a => exact .inr ⟨a, a, s, rfl, rfl, rfl, hs⟩

theorem DecidedBy.bind
    {x : Attempt σ α} {f : α → Attempt σ γ} {d : Option β} {k : β → Option δ}
    {R : α → β → σ → Prop} {Q : γ → δ → σ → Prop}
    (hx : DecidedBy P x d R) (hf : ∀ a b, DecidedBy (R a b) (f a) (k b) Q) :
    DecidedBy P (x >>= f) (d.bind k) Q := by
  intro s hs
  rcases hx s hs with ⟨rfl, e, t, hrun⟩ | ⟨a, b, t, rfl, hrun, hR⟩
  · exact .inl ⟨rfl, e, t, run_bind_of_error f hrun⟩
  · rw [run_bind_of_ok f hrun]
    exact hf a b t hR

/-- A step that only turns the result into another. -/
theorem DecidedBy.then_pure
    {x : Attempt σ α} {f : α → γ} {d : Option β} {R : α → β → σ → Prop} {Q : γ → β → σ → Prop}
    (hx : DecidedBy P x d R) (hQ : ∀ a b s, R a b s → Q (f a) b s) :
    DecidedBy P (do return f (← x)) d Q := by
  rw [← Option.bind_fun_some d]
  exact hx.bind fun a b => decidedBy_pure (hQ a b)

/-- The same, with another decision. -/
theorem DecidedBy.map
    {x : Attempt σ α} {f : α → γ} {d : Option β} {k : β → δ}
    {R : α → β → σ → Prop} {Q : γ → δ → σ → Prop}
    (hx : DecidedBy P x d R) (hQ : ∀ a b s, R a b s → Q (f a) (k b) s) :
    DecidedBy P (do return f (← x)) (d.map k) Q := by
  rw [Option.map_eq_bind]
  exact hx.bind fun a b => decidedBy_pure (hQ a b)

/-- A step before that always succeeds decides nothing. -/
theorem DecidedBy.after
    {x : Attempt σ α} {f : α → Attempt σ γ} {d : Option δ} {R : σ → Prop}
    {Q : γ → δ → σ → Prop}
    (hx : ∀ s, P s → ∃ a t, x.run s = (.ok a, t) ∧ R t) (hf : ∀ a, DecidedBy R (f a) d Q) :
    DecidedBy P (x >>= f) d Q := by
  intro s hs
  obtain ⟨a, t, hrun, ht⟩ := hx s hs
  rw [run_bind_of_ok f hrun]
  exact hf a t ht

/-- What is known of the results of a decided attempt. -/
theorem DecidedBy.ensures
    {x : Attempt σ α} {d : Option β} {Q : α → β → σ → Prop} {R : α → σ → Prop}
    (h : DecidedBy P x d Q) (hR : Ensures P x R) :
    DecidedBy P x d fun a b s => Q a b s ∧ R a s := by
  intro s hs
  rcases h s hs with hnone | ⟨a, b, t, hd, hrun, hQ⟩
  · exact .inl hnone
  · exact .inr ⟨a, b, t, hd, hrun, hQ, hR s hs a t hrun⟩

/-- A decided attempt succeeds where the decision is not none. -/
theorem DecidedBy.isOk_iff
    {x : Attempt σ α} {d : Option β} {Q : α → β → σ → Prop} {s : σ}
    (h : DecidedBy P x d Q) (hs : P s) :
    (x.run s).1.isOk = d.isSome := by
  rcases h s hs with ⟨rfl, e, t, hrun⟩ | ⟨a, b, t, rfl, hrun, -⟩
  · rw [hrun]
    rfl
  · rw [hrun]
    rfl

end Attempt

open Attempt (DecidedBy)

/-! ## Paths -/

/-- The plan is of a query on a collection, and all its joins are declared. -/
structure JoinPlan.Of (schema : Schema) (collection : String) (plan : JoinPlan) : Prop where
  collection_eq : plan.collection = collection
  faithful : plan.Faithful schema

theorem JoinPlan.of_start
    (schema : Schema) (collection qualifier : String) :
    (JoinPlan.start collection qualifier).Of schema collection :=
  ⟨rfl, faithful_start schema collection qualifier⟩

section Paths

variable {schema : Schema} {collection : String} {plan : JoinPlan} {path : List Segment}

/-- A path leads somewhere in a query where its route by the schema does. -/
theorem Compiling.decidedBy_locate
    (hdotless : ∀ s ∈ path, Dotless s.name) :
    DecidedBy (fun p => p.plan.Of schema collection) (Compiling.locate schema path)
      (schema.route collection path).outcome.toOption
      fun a b p => (∃ source, a = b.inSource source) ∧ p.plan.Of schema collection ∧
        p.plan.destination? schema path = some a := by
  rintro p ⟨rfl, hfaithful⟩
  obtain ⟨source, -, hlocate⟩ :=
    JoinPlan.run_locate_route (t := p.planning) hfaithful hdotless
  have hrun : (Compiling.locate schema path).run p =
      ((schema.route p.plan.collection path).outcome.map (Destination.inSource source),
        p.withPlanning (p.planning.crossAll (schema.route p.plan.collection path).crossings)) := by
    unfold Compiling.locate
    rw [Attempt.run_focus, hlocate]
    rfl
  have hend := ensures_locate schema path p.plan p rfl
  rw [hrun] at hend ⊢
  cases houtcome : (schema.route p.plan.collection path).outcome with
  | error e => exact .inl ⟨rfl, e, _, rfl⟩
  | ok destination =>
      rw [houtcome] at hend
      obtain ⟨hextends, hdestination⟩ := hend _ _ rfl
      refine .inr ⟨_, destination, _, rfl, rfl, ⟨source, rfl⟩, ⟨hextends.collection, ?_⟩,
        hdestination⟩
      exact JoinPlan.faithful_crossAll (t := p.planning) hfaithful hdotless

/-- A path that was followed before leads to the end of its route. -/
theorem JoinPlan.Of.outcome_eq
    {destination : Destination}
    (hplan : plan.Of schema collection) (hdotless : ∀ s ∈ path, Dotless s.name)
    (h : plan.destination? schema path = some destination) :
    ∃ found source, (schema.route collection path).outcome = .ok found ∧
      destination = found.inSource source := by
  have hrun := run_locate (p := ⟨{}, plan, []⟩) h
  rcases Compiling.decidedBy_locate hdotless ⟨{}, plan, []⟩ hplan with
    ⟨-, e, q, herror⟩ | ⟨a, found, q, houtcome, hok, ⟨source, rfl⟩, -⟩
  · rw [hrun] at herror
    cases herror
  · rw [hrun] at hok
    cases hok
    cases hfound : (schema.route collection path).outcome with
    | error e =>
        rw [hfound] at houtcome
        cases houtcome
    | ok found' =>
        rw [hfound] at houtcome
        cases houtcome
        exact ⟨found, source, rfl, rfl⟩

theorem Compiling.decidedBy_locate_again
    {destination : Destination}
    (hplan : plan.Of schema collection) (hdotless : ∀ s ∈ path, Dotless s.name)
    (h : plan.destination? schema path = some destination) :
    DecidedBy (fun p => p.plan = plan) (Compiling.locate schema path)
      (schema.route collection path).outcome.toOption
      fun a b p => (∃ source, a = b.inSource source) ∧ a.rest <:+ path ∧ p.plan = plan := by
  rintro p rfl
  obtain ⟨found, source, hfound, rfl⟩ := hplan.outcome_eq hdotless h
  rw [hfound]
  have hrest := gives_locate schema path p _ _ (run_locate h)
  exact .inr ⟨_, found, p, rfl, run_locate h, ⟨source, rfl⟩, hrest, rfl⟩

end Paths

/-! ## Comparisons -/

/-- Whether the criterion of a comparison asks nothing; none if it has no criterion. -/
def Comparison.asksNothing? (c : Comparison) (operand : Json) : Option Bool :=
  (c.criterion operand).toOption.map Criterion.isAlways

/-- Whether a comparison of a field asks nothing; none if it is refused. -/
def Place.verdict (place : Place) (relation : Option Relation) (c : Comparison)
    (operand : Json) : Option Bool :=
  (place.check relation (.compare c)).toOption.bind fun _ => c.asksNothing? operand

/-- The collection behind a link, if the schema has it. -/
def Link.target? (schema : Schema) (place : Place) (relation : Relation)
    (scope : Option String) : Option String :=
  (Link.of schema place relation scope).toOption.map Link.related

/-- Whether a comparison at the end of a path asks nothing; none if it is refused. -/
def Destination.verdict (schema : Schema) (c : Comparison) (operand : Json) :
    Destination → Option Bool
  | .column place relation => place.verdict relation c operand
  | .json place [] => place.verdict none c operand
  | .json place (s :: rest) =>
      (checkJsonPath place.segment.name (s :: rest) (.compare c)).toOption.bind fun _ =>
        c.asksNothing? operand
  | .toMany place relation scope _ =>
      (Link.target? schema place relation scope).bind fun related =>
        (place.check (some relation) (.compare c)).toOption.bind fun _ =>
          (schema.primaryKey related).toOption.bind fun _ => c.asksNothing? operand

/-- Whether a comparison at the end of a path of at most `limit` segments asks nothing; none
if it is refused.  Behind a relation to many rows it always asks something. -/
def Schema.comparisonVerdict (schema : Schema) (c : Comparison) (operand : Json) :
    Nat → String → List Segment → Option Bool
  | 0, _, _ => none
  | limit + 1, collection, path =>
      (schema.route collection path).outcome.toOption.bind fun
        | .toMany place relation scope (s :: rest) =>
            (Link.target? schema place relation scope).bind fun related =>
              (schema.primaryKey related).toOption.bind fun _ =>
                (schema.comparisonVerdict c operand limit related (s :: rest)).map fun _ => false
        | destination => destination.verdict schema c operand

section Comparisons

variable {schema : Schema} {collection : String} {plan : JoinPlan}

/-- The link is the same in all row sources, but for the key. -/
theorem Link.target?_inSource
    (schema : Schema) (place : Place) (relation : Relation) (scope : Option String)
    (qualifier : String) :
    Link.target? schema { place with qualifier := qualifier } relation scope =
      Link.target? schema place relation scope := by
  unfold Link.target? Link.of
  cases scope with
  | none =>
      cases relation.related with
      | error e => rfl
      | ok related =>
          cases relation.relatedField with
          | none => rfl
          | some field => cases schema.primaryKey place.collection <;> rfl
  | some chosen =>
      cases relation.relatedField with
      | none => rfl
      | some field =>
          cases relation.collectionField with
          | none => rfl
          | some collectionField => cases schema.primaryKey place.collection <;> rfl

theorem Link.decidedBy_of
    {P : Progress → Prop} (place : Place) (relation : Relation) (scope : Option String)
    (qualifier : String) :
    DecidedBy P
      (Attempt.ofExcept (Link.of schema { place with qualifier := qualifier } relation scope))
      (Link.target? schema place relation scope)
      fun link related p => link.related = related ∧ P p := by
  rw [← Link.target?_inSource schema place relation scope qualifier]
  intro p hp
  unfold Link.target?
  cases Link.of schema { place with qualifier := qualifier } relation scope with
  | error e => exact .inl ⟨rfl, e, p, rfl⟩
  | ok link => exact .inr ⟨link, link.related, p, rfl, rfl, rfl, hp⟩

/-- A comparison has a criterion where it is decided whether it asks anything. -/
theorem decidedBy_criterion
    {P : Progress → Prop} (c : Comparison) (operand : Json) (target : Sql.Expr) :
    DecidedBy P (do
        let criterion ← Attempt.ofExcept (c.criterion operand)
        return criterion.apply target)
      (c.asksNothing? operand) fun e b p => e.isNone = b ∧ P p := by
  refine (Attempt.decidedBy_ofExcept _).map fun criterion _ p h => ?_
  obtain ⟨rfl, hp⟩ := h
  refine ⟨?_, hp⟩
  rw [Bool.eq_iff_iff, Option.isNone_iff_eq_none, Criterion.apply_eq_none_iff]

theorem Place.decidedBy_condition
    {P : Progress → Prop} (place : Place) (relation : Option Relation) (c : Comparison)
    (operand : Json) (qualifier : String) :
    DecidedBy P
      (Attempt.ofExcept
        (Place.condition { place with qualifier := qualifier } relation c operand))
      (place.verdict relation c operand) fun e b p => e.isNone = b ∧ P p := by
  unfold Place.condition
  rw [Attempt.ofExcept_bind]
  refine (Attempt.decidedBy_ofExcept _).bind fun _ _ => ?_
  rw [Attempt.ofExcept_bind]
  exact (decidedBy_criterion c operand _).mono fun _ _ _ h => ⟨h.1, h.2.2⟩

theorem Link.decidedBy_countCondition
    {link : Link} {related : String} (place : Place) (relation : Relation) (c : Comparison)
    (operand : Json) (qualifier : String)
    (hrelated : link.related = related) :
    DecidedBy (fun p => p.plan = plan)
      (link.countCondition schema { place with qualifier := qualifier } relation c operand)
      ((place.check (some relation) (.compare c)).toOption.bind fun _ =>
        (schema.primaryKey related).toOption.bind fun _ => c.asksNothing? operand)
      fun e b p => e.isNone = b ∧ p.plan = plan := by
  unfold Link.countCondition
  refine (Attempt.decidedBy_ofExcept _).bind fun _ _ => ?_
  rw [hrelated]
  refine (Attempt.decidedBy_ofExcept _).bind fun _ _ => ?_
  refine Attempt.DecidedBy.after (R := fun p => p.plan = plan) ?_ fun label => ?_
  · rintro p ⟨-, -, hp⟩
    exact ⟨_, _, rfl, hp⟩
  · exact decidedBy_criterion c operand _

/-- The condition of a test is built where its comparison has a criterion. -/
theorem DocumentTest.decidedBy_alone
    {c : Comparison} (t : DocumentTest)
    (h : t.operator = .compare c) :
    DecidedBy (fun p => p.plan = plan) (Compiling.label t.alone) (c.asksNothing? t.operand)
      fun e b p => e.isNone = b ∧ p.plan = plan := by
  intro p hp
  have hcriterion : t.operator.criterion t.operand = c.criterion t.operand := by
    rw [h]
    rfl
  unfold Comparison.asksNothing? Compiling.label
  rw [Attempt.run_focus, ← hcriterion]
  cases hresult : t.operator.criterion t.operand with
  | error e =>
      refine .inl ⟨rfl, e, p, ?_⟩
      unfold DocumentTest.alone
      rw [Attempt.run_bind_of_error _ (congrArg (·, p.labels) hresult)]
      rfl
  | ok criterion =>
      cases halways : criterion.isAlways with
      | true =>
          rw [DocumentTest.run_alone_of_isAlways p.labels hresult halways]
          exact .inr ⟨none, true, p, by simp [Except.toOption, halways], rfl, rfl, hp⟩
      | false =>
          obtain ⟨label, condition, labels, -, hrun⟩ :=
            DocumentTest.run_alone p.labels hresult halways
          rw [hrun]
          exact .inr ⟨_, false, _, by simp [Except.toOption, halways], rfl, rfl, hp⟩

theorem decidedBy_arrivalCondition
    (id : Nat) (c : Comparison) (operand : Json) (destination : Destination)
    (qualifier : String) :
    DecidedBy (fun p => p.plan = plan)
      (arrivalCondition schema id c operand (destination.inSource qualifier))
      (destination.verdict schema c operand) fun e b p => e.isNone = b ∧ p.plan = plan := by
  cases destination with
  | column place relation => exact place.decidedBy_condition relation c operand qualifier
  | json place rest =>
      cases rest with
      | nil => exact place.decidedBy_condition none c operand qualifier
      | cons s rest =>
          refine (Attempt.decidedBy_ofExcept _).bind fun _ _ => ?_
          let test :=
            Place.documentTest { place with qualifier := qualifier } id (s :: rest) c operand
          rintro p ⟨-, hp⟩
          exact DocumentTest.decidedBy_alone test rfl p hp
  | toMany place relation scope rest =>
      refine (Link.decidedBy_of place relation scope qualifier).bind fun link related => ?_
      rintro p ⟨hrelated, hp⟩
      exact Link.decidedBy_countCondition place relation c operand qualifier hrelated p hp

/-- A step inside a query of its own is decided there. -/
theorem Compiling.decidedBy_inQuery
    {α β : Type} {step : Compiling α} {d : Option β} {Q : α → β → Prop} {related label : String}
    (h : DecidedBy (fun p => p.plan = JoinPlan.start related label) step d fun a b _ => Q a b) :
    DecidedBy (fun p => p.plan = plan) (Compiling.inQuery related label step) d
      fun x b p => Q x.1 b ∧ p.plan = plan := by
  intro p hp
  rw [run_inQuery]
  rcases h (p.inside related label) rfl with ⟨rfl, e, q, hrun⟩ | ⟨a, b, q, rfl, hrun, hQ⟩
  · rw [hrun]
    exact .inl ⟨rfl, e, _, rfl⟩
  · rw [hrun]
    exact .inr ⟨_, b, _, rfl, rfl, hQ, hp⟩

theorem Probe.decidedBy_enter
    {α β : Type} {step : Compiling α} {d : Option β} {Q : α → β → Prop} (schema : Schema)
    (probe : Probe)
    (h : ∀ qualifier, DecidedBy (fun p => p.plan = JoinPlan.start probe.related qualifier) step d
      fun a b _ => Q a b) :
    DecidedBy (fun p => p.plan = plan) (probe.enter schema step)
      ((schema.primaryKey probe.related).toOption.bind fun _ => d)
      fun x b p => Q x.1 b ∧ p.plan = plan := by
  unfold Probe.enter
  refine (Attempt.decidedBy_ofExcept _).bind fun _ _ => ?_
  refine Attempt.DecidedBy.after (R := fun p => p.plan = plan) ?_ fun label => ?_
  · rintro p ⟨-, hp⟩
    exact ⟨_, _, rfl, hp⟩
  · exact (Compiling.decidedBy_inQuery (h label)).then_pure fun _ _ _ h => h

theorem Schema.comparisonVerdict_of_outcome
    {path : List Segment} (c : Comparison) (operand : Json) (limit : Nat)
    (h : (schema.route collection path).outcome.toOption = none) :
    schema.comparisonVerdict c operand limit collection path = none := by
  cases limit with
  | zero => rfl
  | succ limit =>
      rw [Schema.comparisonVerdict, h]
      rfl

/-- The rest of a path behind a relation to many rows is followed first. -/
theorem decidedBy_restAccount
    {id : Nat} {c : Comparison} {operand : Json} {limit : Nat} {rest : List Segment}
    (hdotless : ∀ s ∈ rest, Dotless s.name)
    (h : ∀ {plan : JoinPlan} {destination : Destination}, plan.Of schema collection →
      plan.destination? schema rest = some destination →
      DecidedBy (fun p => p.plan = plan) (comparisonAccount schema id c operand limit rest)
        (schema.comparisonVerdict c operand limit collection rest)
        fun a b p => a.condition.isNone = b ∧ p.plan = plan) (qualifier : String) :
    DecidedBy (fun p => p.plan = JoinPlan.start collection qualifier) (do
        let _ ← Compiling.locate schema rest
        comparisonAccount schema id c operand limit rest)
      (schema.comparisonVerdict c operand limit collection rest) fun _ _ _ => True := by
  intro p hp
  have hstart : p.plan.Of schema collection := by
    rw [hp]
    exact JoinPlan.of_start schema collection qualifier
  rcases Compiling.decidedBy_locate hdotless p hstart with
    ⟨hnone, e, q, hrun⟩ | ⟨a, b, q, -, hrun, -, hq, hdestination⟩
  · exact .inl ⟨Schema.comparisonVerdict_of_outcome c operand limit hnone, e, q,
      Attempt.run_bind_of_error _ hrun⟩
  · rw [Attempt.run_bind_of_ok _ hrun]
    exact (h hq hdestination).mono (fun _ _ _ _ => trivial) q rfl

/-- A comparison behind a relation to many rows is accepted if the relation leads somewhere,
and the rest of it is accepted there. -/
theorem decidedBy_behind
    {step : Compiling Account} {inner : String → Option Bool} (leaf : Leaf) (place : Place)
    (relation : Relation) (scope : Option String) (source : String)
    (h : ∀ related qualifier,
      DecidedBy (fun p => p.plan = JoinPlan.start related qualifier) step (inner related)
        fun _ _ _ => True) :
    DecidedBy (fun p => p.plan = plan) (do
        let link ← Attempt.ofExcept
          (Link.of schema { place with qualifier := source } relation scope)
        let (a, inquiry) ← link.probe.enter schema step
        return Account.behind leaf link.parentKey inquiry a)
      ((Link.target? schema place relation scope).bind fun related =>
        (schema.primaryKey related).toOption.bind fun _ => (inner related).map fun _ => false)
      fun a b p => a.condition.isNone = b ∧ p.plan = plan := by
  refine (Link.decidedBy_of place relation scope source).bind fun link related => ?_
  rintro p ⟨rfl, hp⟩
  have henter := (link.probe.decidedBy_enter schema (h link.related)).map
    (f := fun x => Account.behind leaf link.parentKey x.2 x.1) (k := fun _ => false)
    (Q := fun a b p => a.condition.isNone = b ∧ p.plan = plan) fun x b p h => ⟨rfl, h.2⟩
  rw [Option.map_bind] at henter
  exact henter p hp

/-- The account of a comparison whose path was followed is built where the comparison is
accepted. -/
theorem decidedBy_comparisonAccount
    (id : Nat) (c : Comparison) (operand : Json) :
    ∀ (limit : Nat) {collection : String} {plan : JoinPlan} {path : List Segment}
      {destination : Destination},
      plan.Of schema collection → (∀ s ∈ path, Dotless s.name) →
      plan.destination? schema path = some destination →
      DecidedBy (fun p => p.plan = plan) (comparisonAccount schema id c operand limit path)
        (schema.comparisonVerdict c operand limit collection path)
        fun a b p => a.condition.isNone = b ∧ p.plan = plan := by
  intro limit
  induction limit with
  | zero => exact fun _ _ _ => Attempt.decidedBy_fail _
  | succ limit ih =>
      intro collection plan path destination hplan hdotless hdestination
      rw [comparisonAccount, Schema.comparisonVerdict]
      refine (Compiling.decidedBy_locate_again hplan hdotless hdestination).bind
        fun located found => ?_
      rintro p ⟨⟨source, rfl⟩, hrest, hp⟩
      have harrival : DecidedBy (fun p => p.plan = plan) (do
          return Account.own ⟨id, path, c, operand⟩
            (← arrivalCondition schema id c operand (found.inSource source)))
          (found.verdict schema c operand)
          fun a b p => a.condition.isNone = b ∧ p.plan = plan :=
        (decidedBy_arrivalCondition id c operand found source).then_pure fun _ _ _ h => h
      cases found with
      | column place relation => exact harrival p hp
      | json place rest => exact harrival p hp
      | toMany place relation scope rest =>
          cases rest with
          | nil => exact harrival p hp
          | cons next rest =>
              have hdotless' : ∀ s ∈ next :: rest, Dotless s.name :=
                fun s hs => hdotless s (hrest.subset hs)
              exact decidedBy_behind _ place relation scope source
                (fun _ => decidedBy_restAccount hdotless' fun hplan h => ih hplan hdotless' h) p hp

end Comparisons

/-! ## Quantifiers -/

/-- The collection of the rows that a quantifier on a field asks for; none if the quantifier
is refused. -/
def Schema.quantifierTarget? (schema : Schema) (collection : String) (field : Segment)
    (q : Quantifier) : Option String :=
  (schema.route collection [field]).outcome.toOption.bind fun
    | .toMany place relation scope _ =>
        (Link.target? schema place relation scope).bind fun related =>
          (place.check (some relation) (.quantify q)).toOption.map fun _ => related
    | destination =>
        (destination.place.check destination.relation? (.quantify q)).toOption.bind fun _ =>
          destination.relation?.bind fun relation =>
            relation.related.toOption.bind fun related =>
              (schema.primaryKey related).toOption.map fun _ => related

section Quantifiers

variable {schema : Schema} {plan : JoinPlan}

theorem decidedBy_linkProbe
    (q : Quantifier) (place : Place) (relation : Relation) (scope : Option String)
    (source : String) :
    DecidedBy (fun p : Progress => p.plan = plan) (do
        let link ← Attempt.ofExcept
          (Link.of schema { place with qualifier := source } relation scope)
        Attempt.ofExcept (place.check (some relation) (.quantify q))
        return link.probe)
      ((Link.target? schema place relation scope).bind fun related =>
        (place.check (some relation) (.quantify q)).toOption.map fun _ => related)
      fun probe related p => probe.related = related ∧ p.plan = plan := by
  refine (Link.decidedBy_of place relation scope source).bind fun link related => ?_
  exact (Attempt.decidedBy_ofExcept _).map fun _ _ p h => h.2

theorem decidedBy_keyProbe
    (q : Quantifier) (place : Place) (relation : Option Relation) (source : String) :
    DecidedBy (fun p : Progress => p.plan = plan) (do
        Attempt.ofExcept (place.check relation (.quantify q))
        match relation with
        | none => .fail (.noRelation place.segment.name)
        | some relation =>
            let related ← Attempt.ofExcept relation.related
            let primary ← Attempt.ofExcept (schema.primaryKey related)
            return Probe.mk (.column source place.segment.name) related primary none)
      ((place.check relation (.quantify q)).toOption.bind fun _ =>
        relation.bind fun relation =>
          relation.related.toOption.bind fun related =>
            (schema.primaryKey related).toOption.map fun _ => related)
      fun probe related p => probe.related = related ∧ p.plan = plan := by
  refine (Attempt.decidedBy_ofExcept _).bind fun _ _ => ?_
  cases relation with
  | none => exact Attempt.decidedBy_fail _
  | some relation =>
      refine (Attempt.decidedBy_ofExcept _).bind fun related found => ?_
      rintro p ⟨rfl, -, hp⟩
      refine ((Attempt.decidedBy_ofExcept (P := fun p => p.plan = plan) _).map ?_) p hp
      exact fun _ _ p h => ⟨rfl, h.2⟩

/-- A quantifier on a field that was followed finds the rows behind it where it is
accepted. -/
theorem decidedBy_quantifierProbe
    {collection : String} {field : Segment} {destination : Destination} (q : Quantifier)
    (hplan : plan.Of schema collection) (hdotless : Dotless field.name)
    (hdestination : plan.destination? schema [field] = some destination) :
    DecidedBy (fun p => p.plan = plan) (quantifierProbe schema field q)
      (schema.quantifierTarget? collection field q)
      fun probe related p => probe.related = related ∧ p.plan = plan := by
  unfold quantifierProbe Schema.quantifierTarget?
  have hpath : ∀ s ∈ [field], Dotless s.name := List.forall_mem_singleton.2 hdotless
  refine (Compiling.decidedBy_locate_again hplan hpath hdestination).bind fun located found => ?_
  rintro p ⟨⟨source, rfl⟩, -, hp⟩
  cases found with
  | toMany place relation scope rest =>
      exact decidedBy_linkProbe q place relation scope source p hp
  | column place relation => exact decidedBy_keyProbe q place relation source p hp
  | json place rest => exact decidedBy_keyProbe q place none source p hp

end Quantifiers

end RowFilter
