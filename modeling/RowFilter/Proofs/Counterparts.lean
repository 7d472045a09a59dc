import RowFilter.Proofs.Noninterference
import RowFilter.Proofs.TwinPlans

/-!
# Conditions built by two plans

Two compilations build the condition of one filter.  The first may have planned more joins
than the second, and so may have given out other labels.  Where the first succeeds, so does
the second, and the conditions resemble each other.

* `Attempt.Echoes`: one step succeeds wherever another one does.
* `Compiling.Alongside`: steps that build conditions by two given plans.
* `Compiling.InQueries`: steps inside a query of its own, from the planning of joins on.
-/

namespace RowFilter

open Sql (Expr Join Select plainName)

namespace Attempt

variable {σ τ α β γ δ : Type}

/-- From states that `S` relates: if the first attempt succeeds then the second one does,
and `Q` relates their results and the states they leave. -/
def Echoes (S : σ → τ → Prop) (x : Attempt σ α) (y : Attempt τ β)
    (Q : α → β → σ → τ → Prop) : Prop :=
  ∀ s t, S s t → ∀ a s', x.run s = (.ok a, s') → ∃ b t', y.run t = (.ok b, t') ∧ Q a b s' t'

variable {S : σ → τ → Prop} {Q R : α → β → σ → τ → Prop}

theorem Relates.echoes
    {x : Attempt σ α} {y : Attempt τ β}
    (h : Relates S x y Q) :
    Echoes S x y Q := by
  intro s t hst a s' hrun
  have hagree := h s t hst
  rw [hrun] at hagree
  cases hy : y.run t with
  | mk result t' =>
      rw [hy] at hagree
      cases hagree with
      | ok hQ => exact ⟨_, t', rfl, hQ⟩

theorem echoes_fail
    (e : QueryError) (y : Attempt τ β) :
    Echoes S (fail e : Attempt σ α) y Q := by
  intro s t _ a s' hrun
  cases hrun

theorem Echoes.bind
    {x : Attempt σ α} {y : Attempt τ β} {f : α → Attempt σ γ} {g : β → Attempt τ δ}
    {Q : γ → δ → σ → τ → Prop}
    (hxy : Echoes S x y R) (hfg : ∀ a b, Echoes (R a b) (f a) (g b) Q) :
    Echoes S (x >>= f) (y >>= g) Q := by
  intro s t hst c s' hrun
  cases hx : x.run s with
  | mk result u =>
      cases result with
      | error e =>
          rw [run_bind_of_error f hx] at hrun
          cases hrun
      | ok a =>
          rw [run_bind_of_ok f hx] at hrun
          obtain ⟨b, v, hy, hR⟩ := hxy s t hst a u hx
          rw [run_bind_of_ok g hy]
          exact hfg a b u v hR c s' hrun

end Attempt

/-! ## States side by side -/

/-- The labels of JSON fields and of elements inside them have the same keys. -/
structure Labels.Resembles (root : String) (l l' : Labels) : Prop where
  fields : SameKeys (fun label label' => plainName root label = plainName root label')
    l.fields l'.fields
  elements : SameKeys (fun label label' => plainName root label = plainName root label')
    l.elements l'.elements

/-- The same was folded in two compilations, and JSON fields have labels in both or in
none. -/
structure Progress.Resembles (root : String) (p p' : Progress) : Prop where
  labels : p.labels.Resembles root p'.labels
  folded : SameKeys (Expr.ResemblesIfAny root) p.folded p'.folded

namespace Labels

variable {root : String} {l l' : Labels}

theorem plainName_numbered
    (hroot : ¬ IsLabel root) (base : String) (n n' : Nat) :
    plainName root (numbered base n) = plainName root (numbered base n') :=
  Sql.plainName_eq_of_isLabel hroot ⟨base, n, rfl⟩ ⟨base, n', rfl⟩

theorem resembles_ofField
    (hroot : ¬ IsLabel root) (h : l.Resembles root l') (collection field : String) :
    plainName root (l.ofField collection field).1.label =
        plainName root (l'.ofField collection field).1.label ∧
      (l.ofField collection field).2.Resembles root (l'.ofField collection field).2 := by
  have hlookup := SameKeys.lookup h.fields (collection, field)
  unfold ofField field?
  generalize l.fields.lookup (collection, field) = found at hlookup ⊢
  generalize l'.fields.lookup (collection, field) = found' at hlookup ⊢
  cases hlookup with
  | some hlabel => exact ⟨hlabel, h⟩
  | none =>
      have hlabel := plainName_numbered hroot field (l.count + 1) (l'.count + 1)
      exact ⟨hlabel, List.rel_append h.fields (.cons ⟨rfl, hlabel⟩ .nil), h.elements⟩

theorem resembles_ofElements
    (hroot : ¬ IsLabel root) (h : l.Resembles root l') (collection field path : String) :
    plainName root (l.ofElements collection field path).1.label =
        plainName root (l'.ofElements collection field path).1.label ∧
      (l.ofElements collection field path).2.Resembles root
        (l'.ofElements collection field path).2 := by
  have hfield := (resembles_ofField hroot h collection field).2
  unfold ofElements
  generalize l.ofField collection field = outcome at hfield ⊢
  generalize l'.ofField collection field = outcome' at hfield ⊢
  obtain ⟨_, l⟩ := outcome
  obtain ⟨_, l'⟩ := outcome'
  have hlookup := SameKeys.lookup hfield.elements (elementsKey collection field path)
  simp only
  generalize l.elements.lookup (elementsKey collection field path) = found at hlookup ⊢
  generalize l'.elements.lookup (elementsKey collection field path) = found' at hlookup ⊢
  cases hlookup with
  | some hlabel => exact ⟨hlabel, hfield⟩
  | none =>
      have hlabel := plainName_numbered hroot field (l.count + 1) (l'.count + 1)
      exact ⟨hlabel, hfield.fields, List.rel_append hfield.elements (.cons ⟨rfl, hlabel⟩ .nil)⟩

end Labels

/-! ## Tests of documents -/

/-- Tests that are the same but for the row source, which the same names lead to. -/
structure DocumentTest.Resembles (plan plan' : JoinPlan) (t t' : DocumentTest) : Prop where
  pairs : plan.Pairs plan' t.qualifier t'.qualifier
  others : t' = { t with qualifier := t'.qualifier }

namespace DocumentTest

variable {schema : Schema} {root : String} {plan plan' : JoinPlan}

theorem Resembles.column
    {t t' : DocumentTest}
    (htwins : plan.Twins schema root plan') (h : Resembles plan plan' t t') :
    t.column.Resembles root t'.column := by
  rw [h.others]
  exact Expr.resembles_column (htwins.plainName_eq h.pairs) t.field

/-- The tests on their own become resembling conditions. -/
theorem relates_alone
    {t t' : DocumentTest}
    (hroot : ¬ Labels.IsLabel root) (htwins : plan.Twins schema root plan')
    (h : Resembles plan plan' t t') :
    Attempt.Relates (Labels.Resembles root) t.alone t'.alone
      fun e e' l l' => Expr.ResemblesIfAny root e e' ∧ l.Resembles root l' := by
  have hcolumn := h.column htwins
  rw [h.others] at hcolumn ⊢
  unfold alone
  refine Attempt.Relates.bind (R := fun c c' l l' => c = c' ∧ l.Resembles root l')
    (Attempt.relates_ofExcept fun _ _ _ _ hl => ⟨rfl, hl⟩) fun c c' => ?_
  rintro l l' ⟨rfl, hl⟩
  by_cases halways : c.isAlways = true
  · rw [if_pos halways, if_pos halways]
    exact .ok ⟨.none, hl⟩
  · rw [if_neg halways, if_neg halways]
    obtain ⟨hlabel, hl'⟩ := Labels.resembles_ofField hroot hl t.collection t.field
    refine .ok ⟨?_, hl'⟩
    exact resembles_map_existsMatch hlabel hcolumn (resembles_condition? hlabel none c) _

theorem criteria_eq_of_resembles
    {tests tests' : List DocumentTest}
    (h : List.Forall₂ (Resembles plan plan') tests tests') :
    criteria tests = criteria tests' := by
  induction h with
  | nil => rfl
  | cons hfirst _ ih =>
      rw [hfirst.others, criteria, criteria, ih]

/-- The tests of one element become resembling conditions. -/
theorem relates_together
    {tests tests' : List DocumentTest}
    (hroot : ¬ Labels.IsLabel root) (htwins : plan.Twins schema root plan')
    (h : List.Forall₂ (Resembles plan plan') tests tests') :
    Attempt.Relates (Labels.Resembles root) (together tests) (together tests')
      fun e e' l l' => Expr.ResemblesIfAny root e e' ∧ l.Resembles root l' := by
  have hcriteria := criteria_eq_of_resembles h
  cases h with
  | nil => exact Attempt.relates_fail _
  | @cons first first' rest rest' hfirst hrest =>
      have hcolumn := hfirst.column htwins
      rw [together, together, ← hcriteria]
      refine Attempt.Relates.bind
        (R := fun asked asked' l l' => asked = asked' ∧ l.Resembles root l')
        (Attempt.relates_ofExcept fun _ _ _ _ hl => ⟨rfl, hl⟩) fun asked asked' => ?_
      rintro l l' ⟨rfl, hl⟩
      rw [hfirst.others] at hcolumn ⊢
      by_cases hempty : asked.isEmpty = true
      · rw [if_pos hempty, if_pos hempty]
        exact .ok ⟨.none, hl⟩
      · rw [if_neg hempty, if_neg hempty]
        obtain ⟨hlabel, hl'⟩ :=
          Labels.resembles_ofElements hroot hl first.collection first.field first.elementPath
        refine .ok ⟨?_, hl'⟩
        exact resembles_map_existsMatch hlabel hcolumn
          (Expr.resembles_group? (resembles_conditions hlabel asked) .and) _

end DocumentTest

/-! ## Steps side by side -/

/-- The states of two compilations that build conditions by these plans. -/
structure Progress.Alongside (root : String) (plan plan' : JoinPlan) (p p' : Progress) : Prop where
  plan : p.plan = plan
  plan' : p'.plan = plan'
  others : p.Resembles root p'

/-- The states of two compilations that plan joins for rows which go by these names. -/
structure Progress.Abreast (schema : Schema) (root qualifier qualifier' : String)
    (p p' : Progress) : Prop where
  planning : p.planning.Abreast schema root qualifier qualifier' p'.planning
  others : p.Resembles root p'

namespace Compiling

variable {schema : Schema} {root : String} {plan plan' : JoinPlan} {α β γ δ : Type}

/-- Where the first step succeeds the second one does, with results that `Q` relates.  Both
leave the plans as they are. -/
def Alongside (root : String) (plan plan' : JoinPlan) (Q : α → β → Prop) (x : Compiling α)
    (y : Compiling β) : Prop :=
  Attempt.Echoes (Progress.Alongside root plan plan') x y
    fun a b p p' => Q a b ∧ Progress.Alongside root plan plan' p p'

/-- The same for steps that begin with the planning of joins.  The first step leaves the
joins of the second. -/
def InQueries (schema : Schema) (root qualifier qualifier' : String) (Q : α → β → Prop)
    (x : Compiling α) (y : Compiling β) : Prop :=
  Attempt.Echoes (Progress.Abreast schema root qualifier qualifier') x y
    fun a b p p' => Q a b ∧ p.plan.Twins schema root p'.plan ∧
      (p.plan.qualifier = qualifier ∧ p'.plan.qualifier = qualifier') ∧ p.Resembles root p'

theorem alongside_pure
    {Q : α → β → Prop} {a : α} {b : β}
    (h : Q a b) :
    Alongside root plan plan' Q (pure a) (pure b) :=
  (Attempt.relates_pure fun _ _ hp => ⟨h, hp⟩).echoes

theorem alongside_outcome
    {Q : α → β → Prop} {x : Except QueryError α} {y : Except QueryError β}
    (h : SameOutcome Q x y) :
    Alongside root plan plan' Q (Attempt.ofExcept x) (Attempt.ofExcept y) :=
  (Attempt.relates_of_sameOutcome h fun _ _ _ _ hab hp => ⟨hab, hp⟩).echoes

theorem alongside_result
    (result : Except QueryError α) :
    Alongside root plan plan' Eq (Attempt.ofExcept result) (Attempt.ofExcept result) :=
  (Attempt.relates_ofExcept fun _ _ _ _ hp => ⟨rfl, hp⟩).echoes

theorem Alongside.bind
    {R : α → β → Prop} {Q : γ → δ → Prop} {x : Compiling α} {y : Compiling β}
    {f : α → Compiling γ} {g : β → Compiling δ}
    (hxy : Alongside root plan plan' R x y)
    (hfg : ∀ a b, R a b → Alongside root plan plan' Q (f a) (g b)) :
    Alongside root plan plan' Q (x >>= f) (y >>= g) :=
  Attempt.Echoes.bind hxy fun a b p p' h => hfg a b h.1 p p' h.2

theorem alongside_label
    {Q : α → β → Prop} {x : Attempt Labels α} {y : Attempt Labels β}
    (h : Attempt.Relates (Labels.Resembles root) x y fun a b l l' => Q a b ∧ l.Resembles root l') :
    Alongside root plan plan' Q (label x) (label y) := by
  refine (Attempt.relates_focus fun p p' hp => ?_).echoes
  rintro l l' ⟨rfl, rfl⟩
  refine (h p.labels p'.labels hp.others.labels).mono ?_
  rintro a b l l' ⟨hab, hl⟩
  exact ⟨hab, hp.plan, hp.plan', hl, hp.others.folded⟩

/-- Both compilations give out labels that they never give out again. -/
theorem echoes_freshLabel
    (hroot : ¬ Labels.IsLabel root) (base : String) :
    Attempt.Echoes (Progress.Alongside root plan plan') (freshLabel base) (freshLabel base)
      fun label label' p p' => plainName root label = plainName root label' ∧
        (p.labels.NeverGives label ∧ p'.labels.NeverGives label') ∧
        Progress.Alongside root plan plan' p p' := by
  intro p p' hp label q hrun
  cases hrun
  refine ⟨_, _, rfl, Labels.plainName_numbered hroot base _ _,
    ⟨p.labels.neverGives_fresh base, p'.labels.neverGives_fresh base⟩, hp.plan, hp.plan', ?_,
    hp.others.folded⟩
  exact ⟨hp.others.labels.fields, hp.others.labels.elements⟩

/-- Both compilations follow a path whose joins are planned. -/
theorem alongside_locate
    {path : List Segment} {destination destination' : Destination}
    (htwins : plan.Twins schema root plan') (hdotless : ∀ s ∈ path, Dotless s.name)
    (hd : plan.destination? schema path = some destination)
    (hd' : plan'.destination? schema path = some destination') :
    Alongside root plan plan'
      (fun d d' => ∃ (found : Destination) (source source' : String),
        plan.Pairs plan' source source' ∧ found.rest <:+ path ∧
          d = found.inSource source ∧ d' = found.inSource source')
      (locate schema path) (locate schema path) := by
  intro p p' hp d q hrun
  have hsuffix := gives_locate schema path p d q hrun
  rw [run_locate (hp.plan ▸ hd)] at hrun
  cases hrun
  obtain ⟨found, source, source', hpairs, rfl, rfl⟩ :=
    htwins.exists_of_destinations hdotless hd hd'
  refine ⟨_, _, run_locate (hp.plan' ▸ hd'), ⟨found, source, source', hpairs, ?_, rfl, rfl⟩, hp⟩
  cases found <;> exact hsuffix

/-- Both compilations follow a path and plan its joins. -/
theorem echoes_locate
    {qualifier qualifier' : String} {path : List Segment}
    (hdotless : ∀ s ∈ path, Dotless s.name) :
    Attempt.Echoes (Progress.Abreast schema root qualifier qualifier') (locate schema path)
      (locate schema path)
      fun _ _ p p' => Progress.Abreast schema root qualifier qualifier' p p' ∧
        (∃ d, p.plan.destination? schema path = some d) ∧
        ∃ d, p'.plan.destination? schema path = some d := by
  rintro p p' ⟨habreast, hp⟩ d q hrun
  obtain ⟨hfields, helements⟩ := JoinPlan.registered_locate habreast.faithful.1 hdotless
  obtain ⟨hfields', helements'⟩ := JoinPlan.registered_locate habreast.faithful.2 hdotless
  have hlabels : Labels.Resembles root ((JoinPlan.locate schema path).run p.planning).2.labels
      ((JoinPlan.locate schema path).run p'.planning).2.labels := by
    constructor
    · rw [hfields, hfields']
      exact hp.labels.fields
    · rw [helements, helements']
      exact hp.labels.elements
  -- whether the path leads somewhere is up to the schema, not to the plans
  have hok := habreast.isOk_locate hdotless
  have hsettled := ensures_locate schema path p.plan p rfl d q hrun
  have hsettled' := ensures_locate schema path p'.plan p' rfl
  unfold locate at hrun hsettled' ⊢
  rw [Attempt.run_focus, Prod.mk.injEq] at hrun
  obtain ⟨hresult, rfl⟩ := hrun
  rw [hresult] at hok
  obtain ⟨d', hd'⟩ := exists_of_isOk hok.symm
  refine ⟨d', _, Prod.ext hd' rfl, ⟨habreast.locate_both hdotless, hlabels, hp.folded⟩,
    ⟨d, hsettled.2⟩, d', (hsettled' d' _ (Prod.ext hd' rfl)).2⟩

/-- After the joins are planned, the conditions are built by the plans. -/
theorem InQueries.of_alongside
    {qualifier qualifier' : String} {Q : γ → δ → Prop} {x : Compiling α} {y : Compiling β}
    {f : α → Compiling γ} {g : β → Compiling δ} {P : JoinPlan → Prop}
    (hroot : ¬ Labels.IsLabel root)
    (hxy : Attempt.Echoes (Progress.Abreast schema root qualifier qualifier') x y
      fun _ _ p p' => Progress.Abreast schema root qualifier qualifier' p p' ∧
        P p.plan ∧ P p'.plan)
    (hfg : ∀ a b plan plan', plan.Twins schema root plan' → P plan → P plan' →
      Alongside root plan plan' Q (f a) (g b)) :
    InQueries schema root qualifier qualifier' Q (x >>= f) (y >>= g) := by
  refine hxy.bind fun a b p p' hp c q hrun => ?_
  obtain ⟨⟨habreast, hresembles⟩, hP, hP'⟩ := hp
  -- from here on the plans stay as they are
  have htwins := habreast.twins hroot
  obtain ⟨d, q', hrun', hQ, hq⟩ :=
    hfg a b p.plan p'.plan htwins hP hP' p p' ⟨rfl, rfl, hresembles⟩ c q hrun
  refine ⟨d, q', hrun', hQ, ?_, ?_, hq.others⟩
  · rw [hq.plan, hq.plan']
    exact htwins
  · rw [hq.plan, hq.plan']
    exact habreast.qualifiers

/-- Both compilations ask whether a key is among rows with resembling conditions. -/
theorem alongside_asked
    {probe probe' : Probe} {x y : Compiling (Option Expr)}
    (hroot : ¬ Labels.IsLabel root) (hprobe : probe.Resembles root probe') (negated : Bool)
    (h : ∀ label label',
      InQueries schema root label label' (Expr.ResemblesIfAny root) x y) :
    Alongside root plan plan' (Expr.ResemblesIfAny root)
      (do
        let (condition, inquiry) ← probe.enter schema x
        return some (inquiry.predicate probe.key negated condition))
      (do
        let (condition, inquiry) ← probe'.enter schema y
        return some (inquiry.predicate probe'.key negated condition)) := by
  obtain ⟨key', related, column, discriminator⟩ := probe'
  have hothers := hprobe.others
  cases hothers
  simp only [Probe.enter, bind_assoc, pure_bind]
  refine (alongside_result _).bind fun _ _ _ => ?_
  refine (echoes_freshLabel hroot probe.related).bind fun label label' => ?_
  rintro p p' ⟨hplain, ⟨hpast, hpast'⟩, hp⟩
  -- inside the query both plans start over, with no path followed
  have hinside : (p.inside probe.related label).planning.Abreast schema root label label'
      (p'.inside probe.related label').planning :=
    .intro hplain hpast hpast' (List.Subset.refl []) .none .none
  intro e q hrun
  rw [Attempt.run_bind, run_inQuery] at hrun
  cases hx : x.run (p.inside probe.related label) with
  | mk result r =>
      rw [hx] at hrun
      cases result with
      | error error => cases hrun
      | ok condition =>
          obtain ⟨condition', r', hy, hcondition, htwins, ⟨hq, hq'⟩, hr⟩ :=
            h label label' _ _ ⟨hinside, hp.others.labels, hp.others.folded⟩ condition r hx
          cases hrun
          rw [Attempt.run_bind, run_inQuery, hy]
          refine ⟨_, _, rfl, .some ?_, hp.plan, hp.plan', hr.labels, hr.folded⟩
          have hcovers := htwins.covers
          rw [hq, hq'] at hcovers
          exact Probe.resembles_predicate hprobe hplain hcovers htwins.planned htwins.planned'
            hcondition negated

end Compiling

/-! ## Comparisons and quantifiers side by side -/

theorem Place.resembles_condition
    {root source source' : String}
    (h : plainName root source = plainName root source') (place : Place)
    (relation : Option Relation) (c : Comparison) (operand : Json) :
    SameOutcome (Expr.ResemblesIfAny root)
      ({ place with qualifier := source }.condition relation c operand)
      ({ place with qualifier := source' }.condition relation c operand) := by
  rw [Place.condition, Place.condition]
  change SameOutcome _ (place.check relation (.compare c) >>= _)
    (place.check relation (.compare c) >>= _)
  cases place.check relation (.compare c) with
  | error e => exact .error e
  | ok =>
      change SameOutcome _ (c.criterion operand >>= _) (c.criterion operand >>= _)
      cases c.criterion operand with
      | error e => exact .error e
      | ok criterion => exact .ok (criterion.resembles_apply (place.resembles_compared h))

theorem Link.resembles_of
    {root source source' : String}
    (h : plainName root source = plainName root source') (schema : Schema) (place : Place)
    (relation : Relation) (scope : Option String) :
    SameOutcome (Link.Resembles root)
      (Link.of schema { place with qualifier := source } relation scope)
      (Link.of schema { place with qualifier := source' } relation scope) := by
  have hlink (related relatedField : String) (discriminator : Option (String × String)) :
      SameOutcome (Link.Resembles root)
        (schema.primaryKey place.collection >>= fun primary =>
          .ok (⟨related, relatedField, discriminator, .column source primary⟩ : Link))
        (schema.primaryKey place.collection >>= fun primary =>
          .ok ⟨related, relatedField, discriminator, .column source' primary⟩) := by
    cases schema.primaryKey place.collection with
    | error e => exact .error e
    | ok primary => exact .ok ⟨Expr.resembles_column h primary, rfl⟩
  simp only [Link.of]
  cases scope with
  | none =>
      cases relation.related with
      | error e => exact .error e
      | ok related =>
          cases relation.relatedField with
          | none => exact .error _
          | some relatedField => exact hlink related relatedField none
  | some related =>
      cases relation.relatedField with
      | none => exact .error _
      | some relatedField =>
          cases relation.collectionField with
          | none => exact .error _
          | some field => exact hlink related relatedField (some (field, place.collection))

section Conditions

variable {schema : Schema} {root : String} {plan plan' : JoinPlan}

theorem alongside_countCondition
    {link link' : Link} {source source' : String}
    (hroot : ¬ Labels.IsLabel root) (hlink : link.Resembles root link') (place : Place)
    (relation : Relation) (c : Comparison) (operand : Json) :
    Compiling.Alongside root plan plan' (Expr.ResemblesIfAny root)
      (link.countCondition schema { place with qualifier := source } relation c operand)
      (link'.countCondition schema { place with qualifier := source' } relation c operand) := by
  obtain ⟨related, relatedField, discriminator, parentKey'⟩ := link'
  have hothers := hlink.others
  cases hothers
  rw [Link.countCondition, Link.countCondition]
  refine (Compiling.alongside_result
    (place.check (some relation) (.compare c))).bind fun _ _ _ => ?_
  refine (Compiling.alongside_result _).bind fun _ _ _ => ?_
  refine (Compiling.echoes_freshLabel hroot link.related).bind fun label label' => ?_
  rintro p p' ⟨hplain, -, hp⟩
  refine (Compiling.alongside_result (c.criterion operand)).bind ?_ p p' hp
  rintro criterion _ rfl
  exact Compiling.alongside_pure (criterion.resembles_apply (Link.resembles_countRows hlink hplain))

/-- The conditions of a comparison that arrives resemble each other. -/
theorem alongside_arrivalCondition
    {source source' : String}
    (hroot : ¬ Labels.IsLabel root) (htwins : plan.Twins schema root plan')
    (hpairs : plan.Pairs plan' source source') (id : Nat) (c : Comparison) (operand : Json)
    (found : Destination) :
    Compiling.Alongside root plan plan' (Expr.ResemblesIfAny root)
      (arrivalCondition schema id c operand (found.inSource source))
      (arrivalCondition schema id c operand (found.inSource source')) := by
  have hplain := htwins.plainName_eq hpairs
  cases found with
  | column place relation =>
      exact Compiling.alongside_outcome (place.resembles_condition hplain relation c operand)
  | json place rest =>
      cases rest with
      | nil => exact Compiling.alongside_outcome (place.resembles_condition hplain none c operand)
      | cons s rest =>
          refine (Compiling.alongside_result
            (checkJsonPath place.segment.name (s :: rest) (.compare c))).bind fun _ _ _ => ?_
          exact Compiling.alongside_label (DocumentTest.relates_alone hroot htwins ⟨hpairs, rfl⟩)
  | toMany place relation scope rest =>
      refine (Compiling.alongside_outcome
        (Link.resembles_of hplain schema place relation scope)).bind fun link link' hlink => ?_
      exact alongside_countCondition hroot hlink place relation c operand

/-- The conditions of a comparison resemble each other. -/
theorem alongside_comparisonCondition
    (hroot : ¬ Labels.IsLabel root) (id : Nat) (c : Comparison) (operand : Json) (limit : Nat) :
    ∀ {plan plan' : JoinPlan} {path : List Segment}, plan.Twins schema root plan' →
      (∀ s ∈ path, Dotless s.name) → (∃ d, plan.destination? schema path = some d) →
      (∃ d, plan'.destination? schema path = some d) →
        Compiling.Alongside root plan plan' (Expr.ResemblesIfAny root)
          (comparisonCondition schema id c operand limit path)
          (comparisonCondition schema id c operand limit path) := by
  induction limit with
  | zero =>
      intro plan plan' path _ _ _ _
      exact Attempt.echoes_fail _ _
  | succ limit ih =>
      rintro plan plan' path htwins hdotless ⟨d, hd⟩ ⟨d', hd'⟩
      rw [comparisonCondition_eq]
      refine (Compiling.alongside_locate htwins hdotless hd hd').bind ?_
      rintro _ _ ⟨found, source, source', hpairs, hrest, rfl, rfl⟩
      have harrival := alongside_arrivalCondition hroot htwins hpairs id c operand found
      cases found with
      | column place relation => exact harrival
      | json place rest => exact harrival
      | toMany place relation scope rest =>
          cases rest with
          | nil => exact harrival
          | cons s rest =>
              have hsuffix : ∀ segment ∈ s :: rest, Dotless segment.name :=
                fun segment hsegment => hdotless segment (hrest.subset hsegment)
              refine (Compiling.alongside_outcome (Link.resembles_of (htwins.plainName_eq hpairs)
                schema place relation scope)).bind fun link link' hlink => ?_
              refine Compiling.alongside_asked hroot hlink.probe false fun label label' => ?_
              exact Compiling.InQueries.of_alongside hroot (Compiling.echoes_locate hsuffix)
                fun _ _ inner inner' hinner hsettled hsettled' =>
                  ih hinner hsuffix hsettled hsettled'

/-- Both compilations ask a quantifier of rows that are found alike. -/
theorem alongside_quantifierProbe
    {field : Segment} {d d' : Destination}
    (htwins : plan.Twins schema root plan') (hdotless : Dotless field.name)
    (hd : plan.destination? schema [field] = some d)
    (hd' : plan'.destination? schema [field] = some d') (q : Quantifier) :
    Compiling.Alongside root plan plan' (Probe.Resembles root) (quantifierProbe schema field q)
      (quantifierProbe schema field q) := by
  rw [quantifierProbe]
  refine (Compiling.alongside_locate htwins (List.forall_mem_singleton.2 hdotless) hd hd').bind ?_
  rintro _ _ ⟨found, source, source', hpairs, -, rfl, rfl⟩
  have hplain := htwins.plainName_eq hpairs
  cases found with
  | toMany place relation scope rest =>
      refine (Compiling.alongside_outcome
        (Link.resembles_of hplain schema place relation scope)).bind fun link link' hlink => ?_
      refine (Compiling.alongside_result
        (place.check (some relation) (.quantify q))).bind fun _ _ _ => ?_
      exact Compiling.alongside_pure hlink.probe
  | json place rest =>
      refine (Compiling.alongside_result (place.check none (.quantify q))).bind fun _ _ _ => ?_
      exact Attempt.echoes_fail _ _
  | column place relation =>
      refine (Compiling.alongside_result (place.check relation (.quantify q))).bind fun _ _ _ => ?_
      cases relation with
      | none => exact Attempt.echoes_fail _ _
      | some relation =>
          refine (Compiling.alongside_result relation.related).bind ?_
          rintro related _ rfl
          refine (Compiling.alongside_result (schema.primaryKey related)).bind ?_
          rintro primary _ rfl
          exact Compiling.alongside_pure ⟨Expr.resembles_column hplain place.segment.name, rfl⟩

/-! ## Folding side by side -/

/-- What became of a condition is looked up in both compilations. -/
theorem alongside_folded
    {α β : Type} {Q : α → β → Prop} {f : Option (Option Expr) → Compiling α}
    {g : Option (Option Expr) → Compiling β} (id : Nat)
    (h : ∀ e e', Option.Rel (Expr.ResemblesIfAny root) e e' →
      Compiling.Alongside root plan plan' Q (f e) (g e')) :
    Compiling.Alongside root plan plan' Q (Attempt.state >>= fun p => f (p.folded.lookup id))
      (Attempt.state >>= fun p => g (p.folded.lookup id)) := by
  intro p p' hp
  rw [Attempt.run_bind_of_ok _ (Attempt.run_state p),
    Attempt.run_bind_of_ok _ (Attempt.run_state p')]
  exact h _ _ (SameKeys.lookup hp.others.folded id) p p' hp

theorem alongside_testOf?
    {path : List Segment}
    (htwins : plan.Twins schema root plan') (hdotless : ∀ s ∈ path, Dotless s.name)
    (hsettled : ∃ d, plan.destination? schema path = some d)
    (hsettled' : ∃ d, plan'.destination? schema path = some d)
    (id : Nat) (c : Comparison) (operand : Json) :
    Compiling.Alongside root plan plan' (Option.Rel (DocumentTest.Resembles plan plan'))
      (testOf? schema id path c operand) (testOf? schema id path c operand) := by
  obtain ⟨d, hd⟩ := hsettled
  obtain ⟨d', hd'⟩ := hsettled'
  unfold testOf?
  refine alongside_folded id (f := fun e => if e.isSome then pure none else _)
    (g := fun e => if e.isSome then pure none else _) fun e e' he => ?_
  cases he with
  | some _ => exact Compiling.alongside_pure .none
  | none =>
      refine (Compiling.alongside_locate htwins hdotless hd hd').bind ?_
      rintro _ _ ⟨found, source, source', hpairs, -, rfl, rfl⟩
      cases found with
      | column place relation => exact Compiling.alongside_pure .none
      | toMany place relation scope rest => exact Compiling.alongside_pure .none
      | json place rest =>
          cases rest with
          | nil => exact Compiling.alongside_pure .none
          | cons s rest =>
              refine (Compiling.alongside_result
                (checkJsonPath place.segment.name (s :: rest) (.compare c))).bind fun _ _ _ => ?_
              exact Compiling.alongside_pure (.some ⟨hpairs, rfl⟩)

mutual

/-- The tests of a filter resemble each other. -/
theorem alongside_testsOf
    (htwins : plan.Twins schema root plan') :
    ∀ {filter : Filter}, (∀ s ∈ filter.segments, Dotless s.name) → filter.Settled schema plan →
      filter.Settled schema plan' →
        Compiling.Alongside root plan plan' (List.Forall₂ (DocumentTest.Resembles plan plan'))
          (testsOf schema filter) (testsOf schema filter)
  | .and children, hdotless, h, h' => by
      rw [Filter.Settled] at h h'
      rw [testsOf]
      exact alongside_testsOfAll htwins hdotless h h'
  | .or children, _, _, _ => by
      rw [testsOf]
      exact Compiling.alongside_pure .nil
  | .compare id path c operand, hdotless, h, h' => by
      rw [Filter.Settled] at h h'
      rw [testsOf]
      refine (alongside_testOf? htwins hdotless h h' id c operand).bind fun t t' ht => ?_
      refine Compiling.alongside_pure ?_
      cases ht with
      | none => exact .nil
      | some ht => exact .cons ht .nil
  | .quantify .., _, _, _ => by
      rw [testsOf]
      exact Compiling.alongside_pure .nil

theorem alongside_testsOfAll
    (htwins : plan.Twins schema root plan') :
    ∀ {filters : List Filter}, (∀ s ∈ Filter.segmentsOfAll filters, Dotless s.name) →
      Filter.AllSettled schema plan filters → Filter.AllSettled schema plan' filters →
        Compiling.Alongside root plan plan' (List.Forall₂ (DocumentTest.Resembles plan plan'))
          (testsOfAll schema filters) (testsOfAll schema filters)
  | [], _, _, _ => by
      rw [testsOfAll]
      exact Compiling.alongside_pure .nil
  | child :: rest, hdotless, h, h' => by
      rw [Filter.AllSettled] at h h'
      obtain ⟨hchild, hrest⟩ := List.forall_mem_append.1 hdotless
      rw [testsOfAll]
      refine (alongside_testsOf htwins hchild h.1 h'.1).bind fun tests tests' htests => ?_
      refine (alongside_testsOfAll htwins hrest h.2 h'.2).bind fun others others' hothers => ?_
      exact Compiling.alongside_pure (List.rel_append htests hothers)

end

namespace DocumentTest

/-- Tests belong together in both compilations or in none. -/
theorem Resembles.groupKey_eq_iff
    {t t' u u' : DocumentTest}
    (htwins : plan.Twins schema root plan') (ht : Resembles plan plan' t t')
    (hu : Resembles plan plan' u u') :
    t.groupKey = u.groupKey ↔ t'.groupKey = u'.groupKey := by
  have hpairs := htwins.eq_iff_of_pairs ht.pairs hu.pairs
  have hfield : t'.field = t.field := by rw [ht.others]
  have hpath : t'.path = t.path := by rw [ht.others]
  have hfield' : u'.field = u.field := by rw [hu.others]
  have hpath' : u'.path = u.path := by rw [hu.others]
  simp only [groupKey, elementPath, Prod.mk.injEq, hpairs, hfield, hfield', hpath, hpath']

/-- Tests that resemble each other are grouped alike. -/
theorem resembles_groups
    {tests tests' : List DocumentTest}
    (htwins : plan.Twins schema root plan')
    (h : List.Forall₂ (Resembles plan plan') tests tests') :
    List.Forall₂ (List.Forall₂ (Resembles plan plan')) (groups (tests.filter endsInMember))
      (groups (tests'.filter endsInMember)) := by
  refine rel_groups (fun t t' u u' ht hu => hu.groupKey_eq_iff htwins ht)
    (List.rel_filter (fun t t' ht => ?_) h)
  show t.endsInMember = true ↔ t'.endsInMember = true
  rw [ht.others]
  rfl

end DocumentTest

theorem alongside_foldGroup
    {group group' : List DocumentTest}
    (hroot : ¬ Labels.IsLabel root) (htwins : plan.Twins schema root plan')
    (h : List.Forall₂ (DocumentTest.Resembles plan plan') group group') :
    Compiling.Alongside root plan plan' (fun _ _ => True) (foldGroup group)
      (foldGroup group') := by
  have hid {t t' : DocumentTest} (ht : DocumentTest.Resembles plan plan' t t') : t.id = t'.id := by
    rw [ht.others]
  cases h with
  | nil => exact Compiling.alongside_pure trivial
  | @cons first first' rest rest' hfirst hrest =>
      cases hrest with
      | nil => exact Compiling.alongside_pure trivial
      | @cons second second' rest rest' hsecond hrest =>
          have hothers : SameKeys (Expr.ResemblesIfAny root)
              ((second :: rest).map fun t => (t.id, none))
              ((second' :: rest').map fun t => (t.id, none)) := by
            rw [SameKeys, List.forall₂_map_left_iff, List.forall₂_map_right_iff]
            exact (List.Forall₂.cons hsecond hrest).imp fun _ _ ht => ⟨hid ht, .none⟩
          rw [foldGroup, foldGroup]
          refine (Compiling.alongside_label (DocumentTest.relates_together hroot htwins
            (.cons hfirst (.cons hsecond hrest)))).bind fun e e' he => ?_
          refine (Attempt.relates_update fun p p' hp => ⟨trivial, hp.plan, hp.plan',
            hp.others.labels, ?_⟩).echoes
          exact List.rel_append hp.others.folded (.cons ⟨hid hfirst, he⟩ hothers)

theorem alongside_foldGroups
    {groups groups' : List (List DocumentTest)}
    (hroot : ¬ Labels.IsLabel root) (htwins : plan.Twins schema root plan')
    (h : List.Forall₂ (List.Forall₂ (DocumentTest.Resembles plan plan')) groups groups') :
    Compiling.Alongside root plan plan' (fun _ _ => True) (foldGroups groups)
      (foldGroups groups') := by
  induction h with
  | nil => exact Compiling.alongside_pure trivial
  | cons hgroup _ ih =>
      rw [foldGroups, foldGroups]
      exact (alongside_foldGroup hroot htwins hgroup).bind fun _ _ _ => ih

/-- Both compilations fold the same conditions. -/
theorem alongside_foldSiblings
    {children : List Filter}
    (hroot : ¬ Labels.IsLabel root) (htwins : plan.Twins schema root plan')
    (hdotless : ∀ s ∈ Filter.segmentsOfAll children, Dotless s.name)
    (h : Filter.AllSettled schema plan children) (h' : Filter.AllSettled schema plan' children) :
    Compiling.Alongside root plan plan' (fun _ _ => True) (foldSiblings schema children)
      (foldSiblings schema children) := by
  rw [foldSiblings]
  refine (alongside_testsOfAll htwins hdotless h h').bind fun tests tests' htests => ?_
  exact alongside_foldGroups hroot htwins (DocumentTest.resembles_groups htwins htests)

end Conditions

end RowFilter
