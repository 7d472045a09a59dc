import RowFilter.Proofs.Grouping
import RowFilter.Proofs.Locating
import RowFilter.Proofs.Operands
import RowFilter.Proofs.Tables

/-!
# Operands do not reach the statement

Two filters that differ in operands only are compiled side by side.  All that the
compilations decide (joins, labels, which conditions are folded, errors) they decide
in the same way, so the two statements have one text, and their parameters differ
only in values for which the operands stand.

* `Progress.Alike`: what the states of two such compilations have in common.
* `alike_filterCondition`: they go on in the same way.
* `compile_ignores_operands`: compiled filters and their statements.
-/

namespace RowFilter

open Sql (Expr)

/-! ## Where paths lead -/

/-- What one segment of a path can do. -/
inductive Schema.Stepped (schema : Schema) (collection : String) (segment : Segment)
    (rest : List Segment) : Step → Prop
  | json (place : Place) (hrelation : schema.relation? collection segment.name = none)
      (hjson : (schema.field? collection segment.name).any (·.type.isJson) = true) :
      Stepped schema collection segment rest (.arrive (.json place rest))
  | column (place : Place) : Stepped schema collection segment rest (.arrive (.column place none))
  | toMany (place : Place) {relation : Relation}
      (hrelation : schema.relation? collection segment.name = some relation) :
      Stepped schema collection segment rest
        (.arrive (.toMany place relation segment.scope rest))
  | key (place : Place) {relation : Relation}
      (hrelation : schema.relation? collection segment.name = some relation)
      (hscope : segment.scope = none) :
      Stepped schema collection segment rest (.arrive (.column place (some relation)))
  | cross {relation : Relation}
      (hrelation : schema.relation? collection segment.name = some relation)
      (hscope : segment.scope = none) : Stepped schema collection segment rest (.cross relation)

theorem Place.stepped_of_relate
    {schema : Schema} {collection : String} {place : Place} {relation : Relation}
    {rest : List Segment} {step : Step}
    (hrelation : schema.relation? collection place.segment.name = some relation)
    (h : place.relate relation rest = .ok step) :
    schema.Stepped collection place.segment rest step := by
  unfold Place.relate at h
  split at h
  · cases h
  · obtain ⟨scope, hscope, h⟩ := exists_of_bind_ok h
    obtain ⟨rfl, hone⟩ := Segment.scope_of_choose hscope
    split at h
    · cases h
      exact .toMany _ hrelation
    · rename_i hmany
      have hnone := hone (Bool.eq_false_iff.2 hmany)
      split at h
      · cases h
        exact .key _ hrelation hnone
      · cases h
        exact .cross hrelation hnone

theorem Schema.stepped_of_ok
    {schema : Schema} {qualifier collection : String} {segment : Segment} {rest : List Segment}
    {step : Step}
    (h : schema.step qualifier collection segment rest = .ok step) :
    schema.Stepped collection segment rest step := by
  unfold Schema.step at h
  split at h
  · cases h
  · rename_i field hfield
    split at h
    · rename_i hrelation
      simp only [Place.arrive] at h
      split_ifs at h with hjson
      all_goals cases h
      · exact .json _ hrelation (by rw [hfield]; exact hjson)
      · exact .column _
    · rename_i relation hrelation
      exact Place.stepped_of_relate hrelation h

theorem Schema.readsDocument_of_relation
    {schema : Schema} {collection related : String} {segment : Segment} {relation : Relation}
    (hrelation : schema.relation? collection segment.name = some relation)
    (hrelated : relation.target segment.scope = .ok related) (rest : List Segment) :
    schema.readsDocument collection (segment :: rest) = schema.readsDocument related rest := by
  rw [readsDocument, hrelation]
  simp only [hrelated]
  rfl

/-- What a destination says about a path from a collection: that it ends inside a
JSON document, or which rows it goes on from. -/
structure Destination.Leads (schema : Schema) (collection : String) (path : List Segment)
    (destination : Destination) : Prop where
  json : ∀ place s rest, destination = .json place (s :: rest) →
    schema.readsDocument collection path = true
  toMany : ∀ place relation scope rest related, destination = .toMany place relation scope rest →
    relation.target scope = .ok related →
    schema.readsDocument collection path = schema.readsDocument related rest

theorem Destination.leads_of_trace?
    {schema : Schema} {sources : List (String × String)} {path : List Segment}
    {destination : Destination} :
    ∀ {before : List Segment} {qualifier collection : String},
      JoinPlan.trace? schema sources before qualifier collection path = some destination →
        destination.Leads schema collection path := by
  induction path with
  | nil =>
      intro before qualifier collection h
      cases h
  | cons segment rest ih =>
      intro before qualifier collection h
      rw [JoinPlan.trace?] at h
      split at h
      · rename_i found hstep
        cases h
        cases Schema.stepped_of_ok hstep with
        | json place hrelation hjson =>
            refine ⟨?_, by rintro _ _ _ _ _ ⟨⟩⟩
            rintro _ s inner ⟨⟩
            rw [Schema.readsDocument, hrelation]
            simp [hjson]
        | column place => exact ⟨by rintro _ _ _ ⟨⟩, by rintro _ _ _ _ _ ⟨⟩⟩
        | toMany place hrelation =>
            refine ⟨by rintro _ _ _ ⟨⟩, ?_⟩
            rintro _ _ _ _ related ⟨⟩ hrelated
            exact Schema.readsDocument_of_relation hrelation hrelated rest
        | key place hrelation hscope => exact ⟨by rintro _ _ _ ⟨⟩, by rintro _ _ _ _ _ ⟨⟩⟩
      · rename_i relation hstep
        split at h
        · rename_i label related hlabel hrelated
          cases Schema.stepped_of_ok hstep with
          | cross hrelation hscope =>
              have hleads := ih h
              have hreads : schema.readsDocument collection (segment :: rest) =
                  schema.readsDocument related rest := by
                refine Schema.readsDocument_of_relation hrelation ?_ rest
                rw [hscope]
                exact hrelated
              refine ⟨fun place s inner hd => ?_, fun place r scope inner next hd hnext => ?_⟩
              · rw [hreads, hleads.json place s inner hd]
              · rw [hreads, hleads.toMany place r scope inner next hd hnext]
        · cases h
      · cases h

/-- The collection of the rows at a destination. -/
def Destination.rows? : Destination → Option String
  | .toMany _ relation scope _ => (relation.target scope).toOption
  | .column _ relation => relation.bind fun r => r.related.toOption
  | .json _ _ => none

theorem Destination.rowsBehind?_of_trace?
    {schema : Schema} {sources : List (String × String)} {before : List Segment}
    {qualifier collection related : String} {field : Segment} {destination : Destination}
    (h : JoinPlan.trace? schema sources before qualifier collection [field] = some destination)
    (hrows : destination.rows? = some related) :
    schema.rowsBehind? collection field = some related := by
  rw [JoinPlan.trace?] at h
  split at h
  · rename_i found hstep
    cases h
    cases Schema.stepped_of_ok hstep with
    | json place hrelation hjson => cases hrows
    | column place => cases hrows
    | toMany place hrelation =>
        rw [Schema.rowsBehind?, hrelation]
        exact hrows
    | key place hrelation hscope =>
        rw [Schema.rowsBehind?, hrelation, hscope]
        exact hrows
  · split at h
    · cases h
    · cases h
  · cases h

/-! ## Compilations side by side -/

/-- Conditions, if there are any, that differ in values only. -/
abbrev AlikeIfAny (R : Value → Value → Prop) : Option Expr → Option Expr → Prop :=
  Option.Rel (Expr.Alike R)

/-- The states of two compilations inside a query on a collection: what was folded
differs in values only, and the rest is the same. -/
structure Progress.Alike (R : Value → Value → Prop) (collection : String)
    (p p' : Progress) : Prop where
  labels : p.labels = p'.labels
  plan : p.plan = p'.plan
  collection : p.plan.collection = collection
  folded : List.Forall₂ (fun x x' => x.1 = x'.1 ∧ AlikeIfAny R x.2 x'.2) p.folded p'.folded

namespace Compiling

variable {R : Value → Value → Prop} {collection : String} {α β γ δ : Type}

/-- From states that are alike both steps fail with the same error, or reach states
that are alike with results that `Q` relates. -/
def Alike (R : Value → Value → Prop) (collection : String) (Q : α → β → Prop)
    (x : Compiling α) (y : Compiling β) : Prop :=
  Attempt.Relates (Progress.Alike R collection) x y
    fun a b p p' => Q a b ∧ Progress.Alike R collection p p'

theorem alike_pure
    {Q : α → β → Prop} {a : α} {b : β}
    (h : Q a b) :
    Alike R collection Q (pure a) (pure b) :=
  Attempt.relates_pure fun _ _ hp => ⟨h, hp⟩

theorem alike_fail
    {Q : α → β → Prop} (e : QueryError) :
    Alike R collection Q (Attempt.fail e) (Attempt.fail e) :=
  Attempt.relates_fail e

theorem alike_outcome
    {Q : α → β → Prop} {x : Except QueryError α} {y : Except QueryError β}
    (h : SameOutcome Q x y) :
    Alike R collection Q (Attempt.ofExcept x) (Attempt.ofExcept y) :=
  Attempt.relates_of_sameOutcome h fun _ _ _ _ hab hp => ⟨hab, hp⟩

theorem alike_result
    (result : Except QueryError α) :
    Alike R collection (fun a b => a = b ∧ result = .ok a) (Attempt.ofExcept result)
      (Attempt.ofExcept result) :=
  Attempt.relates_ofExcept fun _ _ _ hresult hp => ⟨⟨rfl, hresult⟩, hp⟩

theorem Alike.bind
    {S : α → β → Prop} {Q : γ → δ → Prop} {x : Compiling α} {y : Compiling β}
    {f : α → Compiling γ} {g : β → Compiling δ}
    (hxy : Alike R collection S x y)
    (hfg : ∀ a b, S a b → Alike R collection Q (f a) (g b)) :
    Alike R collection Q (x >>= f) (y >>= g) :=
  Attempt.Relates.bind hxy fun a b p p' h => hfg a b h.1 p p' h.2

theorem alike_label
    {Q : α → β → Prop} {x : Attempt Labels α} {y : Attempt Labels β}
    (h : Attempt.InStep Q x y) :
    Alike R collection Q (label x) (label y) := by
  refine Attempt.relates_focus fun p p' hp => ?_
  rintro l l' ⟨rfl, rfl⟩
  refine (h p.labels p'.labels hp.labels).mono ?_
  rintro a b l _ ⟨hab, rfl⟩
  exact ⟨hab, rfl, hp.plan, hp.collection, hp.folded⟩

theorem alike_freshLabel
    (base : String) :
    Alike R collection Eq (freshLabel base) (freshLabel base) :=
  alike_label (Attempt.inStep_same (fun _ => rfl) _)

/-- Both compilations follow a path to the same destination. -/
theorem alike_locate
    (schema : Schema) (path : List Segment) :
    Alike R collection
      (fun d d' => d = d' ∧ d.Leads schema collection path ∧
        ∀ field related, path = [field] → d.rows? = some related →
          schema.rowsBehind? collection field = some related)
      (locate schema path) (locate schema path) := by
  intro p p' hp
  have hplanning : p'.planning = p.planning := by
    rw [Progress.planning, Progress.planning, hp.labels, hp.plan]
  have hensures := ensures_locate schema path p.plan p rfl
  unfold locate at hensures ⊢
  rw [Attempt.run_focus] at hensures
  rw [Attempt.run_focus, Attempt.run_focus, hplanning]
  generalize (JoinPlan.locate schema path).run p.planning = outcome at hensures ⊢
  obtain ⟨result, t⟩ := outcome
  cases result with
  | error e => exact .error e _ _
  | ok destination =>
      obtain ⟨hextends, htrace⟩ := hensures destination _ rfl
      have hcollection : (p.withPlanning t).plan.collection = collection :=
        hextends.collection.trans hp.collection
      unfold JoinPlan.destination? at htrace
      rw [hcollection] at htrace
      refine .ok ⟨⟨rfl, Destination.leads_of_trace? htrace, ?_⟩, rfl, rfl, hcollection, hp.folded⟩
      rintro field related rfl hrows
      exact Destination.rowsBehind?_of_trace? htrace hrows

/-- Both compilations go inside a query and come out of it. -/
theorem alike_inQuery
    {Q : α → β → Prop} {x : Compiling α} {y : Compiling β} {related : String}
    (h : Alike R related Q x y) (label : String) :
    Alike R collection (fun a b => Q a.1 b.1 ∧ a.2 = b.2) (inQuery related label x)
      (inQuery related label y) := by
  intro p p' hp
  have hinside : Progress.Alike R related (p.inside related label) (p'.inside related label) :=
    ⟨hp.labels, rfl, rfl, hp.folded⟩
  have hstep := h _ _ hinside
  rw [run_inQuery, run_inQuery]
  generalize x.run (p.inside related label) = outcome at hstep ⊢
  generalize y.run (p'.inside related label) = outcome' at hstep ⊢
  cases hstep with
  | error e => exact .error e _ _
  | ok hQ =>
      obtain ⟨hab, hq⟩ := hQ
      exact .ok ⟨⟨hab, by rw [hq.plan]⟩, hq.labels, hp.plan, hp.collection, hq.folded⟩

theorem alike_enter
    {Q : α → β → Prop} {x : Compiling α} {y : Compiling β}
    (probe : Probe) (schema : Schema) (h : Alike R probe.related Q x y) :
    Alike R collection (fun a b => Q a.1 b.1 ∧ a.2 = b.2) (probe.enter schema x)
      (probe.enter schema y) := by
  rw [Probe.enter, Probe.enter]
  refine (alike_result _).bind fun _ _ _ => ?_
  refine (alike_freshLabel _).bind fun label _ hlabel => ?_
  cases hlabel
  refine (alike_inQuery h label).bind fun a b hab => ?_
  obtain ⟨hQ, hjoins⟩ := hab
  refine alike_pure ⟨hQ, ?_⟩
  rw [hjoins]

end Compiling

/-! ## Conditions side by side -/

section Conditions

variable {R : Value → Value → Prop} {collection : String}

theorem forall₂_toList
    {e e' : Option Expr}
    (h : AlikeIfAny R e e') :
    List.Forall₂ (Expr.Alike R) e.toList e'.toList := by
  cases h with
  | none => exact .nil
  | some he => exact .cons he .nil

theorem Inquiry.alike_predicate
    {e e' : Option Expr}
    (hR : ∀ v, R v v) (q : Inquiry) (key : Expr) (negated : Bool) (h : AlikeIfAny R e e') :
    (q.predicate key negated e).Alike R (q.predicate key negated e') := by
  refine Expr.alike_inQuery hR key (Sql.Select.alike_filter hR _ ?_) negated
  refine Expr.alike_group? (List.rel_append (forall₂_toList h) ?_) .and
  exact List.forall₂_same.2 fun e _ => Expr.alike_refl hR e

/-- Both compilations ask whether a key is among rows with alike conditions. -/
theorem alike_asked
    {x y : Compiling (Option Expr)}
    (hR : ∀ v, R v v) (probe : Probe) (schema : Schema) (key : Expr) (negated : Bool)
    (h : Compiling.Alike R probe.related (AlikeIfAny R) x y) :
    Compiling.Alike R collection (AlikeIfAny R)
      (do
        let (condition, inquiry) ← probe.enter schema x
        return some (inquiry.predicate key negated condition))
      (do
        let (condition, inquiry) ← probe.enter schema y
        return some (inquiry.predicate key negated condition)) := by
  refine (Compiling.alike_enter probe schema h).bind ?_
  rintro ⟨condition, inquiry⟩ ⟨condition', _⟩ ⟨hcondition, rfl⟩
  exact Compiling.alike_pure (.some (inquiry.alike_predicate hR key negated hcondition))

theorem Place.sameOutcome_condition
    {c : Comparison} {o o' : Json} {inside : Bool}
    (hR : ∀ v, R v v)
    (h : SameOutcome (Criterion.Indistinct R inside) (c.criterion o) (c.criterion o'))
    (place : Place) (relation : Option Relation) :
    SameOutcome (AlikeIfAny R) (place.condition relation c o) (place.condition relation c o') := by
  rw [Place.condition, Place.condition]
  cases place.check relation (.compare c) with
  | error e => exact .error e
  | ok =>
      refine h.bind fun k k' hk => ?_
      exact .ok (hk.alike.apply hR place.compared)

theorem alike_countCondition
    {c : Comparison} {o o' : Json} {inside : Bool}
    (hR : ∀ v, R v v)
    (h : SameOutcome (Criterion.Indistinct R inside) (c.criterion o) (c.criterion o'))
    (link : Link) (schema : Schema) (place : Place) (relation : Relation) :
    Compiling.Alike R collection (AlikeIfAny R) (link.countCondition schema place relation c o)
      (link.countCondition schema place relation c o') := by
  rw [Link.countCondition, Link.countCondition]
  refine (Compiling.alike_result _).bind fun _ _ _ => ?_
  refine (Compiling.alike_result _).bind fun _ _ _ => ?_
  refine (Compiling.alike_freshLabel _).bind fun label _ hlabel => ?_
  cases hlabel
  refine (Compiling.alike_outcome h).bind fun k k' hk => ?_
  exact Compiling.alike_pure (hk.alike.apply hR _)

theorem alike_arrivalCondition
    {schema : Schema} {path : List Segment} {c : Comparison} {o o' : Json}
    {destination : Destination}
    (hR : ∀ v, R v v)
    (h : SameOutcome (Criterion.Indistinct R (schema.readsDocument collection path))
      (c.criterion o) (c.criterion o'))
    (hleads : destination.Leads schema collection path) (id : Nat) :
    Compiling.Alike R collection (AlikeIfAny R) (arrivalCondition schema id c o destination)
      (arrivalCondition schema id c o' destination) := by
  cases destination with
  | column place relation =>
      exact Compiling.alike_outcome (place.sameOutcome_condition hR h relation)
  | json place rest =>
      cases rest with
      | nil => exact Compiling.alike_outcome (place.sameOutcome_condition hR h none)
      | cons s rest =>
          rw [hleads.json place s rest rfl] at h
          rw [arrivalCondition, arrivalCondition]
          refine (Compiling.alike_result _).bind fun _ _ _ => ?_
          exact Compiling.alike_label (DocumentTest.inStep_alone ⟨rfl, h⟩ hR)
  | toMany place relation scope rest =>
      rw [arrivalCondition, arrivalCondition]
      refine (Compiling.alike_result _).bind fun link _ hlink => ?_
      obtain ⟨rfl, -⟩ := hlink
      exact alike_countCondition hR h link schema place relation

theorem alike_comparisonCondition
    {schema : Schema} {c : Comparison} {o o' : Json}
    (hR : ∀ v, R v v) (id limit : Nat) :
    ∀ (collection : String) (path : List Segment),
      SameOutcome (Criterion.Indistinct R (schema.readsDocument collection path))
        (c.criterion o) (c.criterion o') →
      Compiling.Alike R collection (AlikeIfAny R) (comparisonCondition schema id c o limit path)
        (comparisonCondition schema id c o' limit path) := by
  induction limit with
  | zero =>
      intro collection path _
      exact Compiling.alike_fail _
  | succ limit ih =>
      intro collection path h
      rw [comparisonCondition_eq, comparisonCondition_eq]
      refine (Compiling.alike_locate schema path).bind fun destination _ hd => ?_
      obtain ⟨rfl, hleads, -⟩ := hd
      have harrival := alike_arrivalCondition hR h hleads id
      cases destination with
      | column place relation => exact harrival
      | json place rest => exact harrival
      | toMany place relation scope rest =>
          cases rest with
          | nil => exact harrival
          | cons s rest =>
              refine (Compiling.alike_result _).bind fun link _ hlink => ?_
              obtain ⟨rfl, hlink⟩ := hlink
              have htarget := (Link.made_of_ok hlink).related
              rw [hleads.toMany place relation scope _ link.related rfl htarget] at h
              have hinner : Compiling.Alike R link.related (AlikeIfAny R)
                  (do
                    let _ ← Compiling.locate schema (s :: rest)
                    comparisonCondition schema id c o limit (s :: rest))
                  (do
                    let _ ← Compiling.locate schema (s :: rest)
                    comparisonCondition schema id c o' limit (s :: rest)) :=
                (Compiling.alike_locate schema (s :: rest)).bind fun _ _ _ =>
                  ih link.related (s :: rest) h
              exact alike_asked hR link.probe schema link.parentKey false hinner

/-- Both compilations ask a quantifier of the same rows. -/
theorem alike_quantifierProbe
    (schema : Schema) (field : Segment) (q : Quantifier) :
    Compiling.Alike R collection
      (fun probe probe' => probe = probe' ∧
        schema.rowsBehind? collection field = some probe.related)
      (quantifierProbe schema field q) (quantifierProbe schema field q) := by
  rw [quantifierProbe]
  refine (Compiling.alike_locate schema [field]).bind fun destination _ hd => ?_
  obtain ⟨rfl, -, hrows⟩ := hd
  cases destination with
  | toMany place relation scope rest =>
      refine (Compiling.alike_result _).bind fun link _ hlink => ?_
      obtain ⟨rfl, hlink⟩ := hlink
      refine (Compiling.alike_result _).bind fun _ _ _ => ?_
      refine Compiling.alike_pure ⟨rfl, hrows field link.related rfl ?_⟩
      rw [Destination.rows?, (Link.made_of_ok hlink).related]
      rfl
  | json place rest =>
      refine (Compiling.alike_result _).bind fun _ _ _ => ?_
      exact Compiling.alike_fail _
  | column place relation =>
      refine (Compiling.alike_result _).bind fun _ _ _ => ?_
      cases relation with
      | none => exact Compiling.alike_fail _
      | some relation =>
          refine (Compiling.alike_result _).bind fun related _ hrelated => ?_
          obtain ⟨rfl, hrelated⟩ := hrelated
          refine (Compiling.alike_result _).bind fun primary _ hprimary => ?_
          obtain ⟨rfl, -⟩ := hprimary
          refine Compiling.alike_pure ⟨rfl, hrows field related rfl ?_⟩
          rw [Destination.rows?, Option.bind_some, hrelated]
          rfl

/-! ## Folding side by side -/

/-- What became of a condition is looked up in both compilations. -/
theorem alike_folded
    {α β : Type} {Q : α → β → Prop} {f : Option (Option Expr) → Compiling α}
    {g : Option (Option Expr) → Compiling β} (id : Nat)
    (h : ∀ e e', Option.Rel (AlikeIfAny R) e e' → Compiling.Alike R collection Q (f e) (g e')) :
    Compiling.Alike R collection Q (Attempt.state >>= fun p => f (p.folded.lookup id))
      (Attempt.state >>= fun p => g (p.folded.lookup id)) := by
  intro p p' hp
  rw [Attempt.run_bind_of_ok _ (Attempt.run_state p), Attempt.run_bind_of_ok _ (Attempt.run_state p')]
  exact h _ _ (SameKeys.lookup hp.folded id) p p' hp

theorem alike_testOf?
    {schema : Schema} {path : List Segment} {c : Comparison} {o o' : Json} (id : Nat)
    (h : SameOutcome (Criterion.Indistinct R (schema.readsDocument collection path))
      (c.criterion o) (c.criterion o')) :
    Compiling.Alike R collection (Option.Rel (DocumentTest.Alike R))
      (testOf? schema id path c o) (testOf? schema id path c o') := by
  unfold testOf?
  refine alike_folded id (f := fun e => if e.isSome then pure none else _)
    (g := fun e => if e.isSome then pure none else _) fun e e' he => ?_
  cases he with
  | some _ => exact Compiling.alike_pure .none
  | none =>
      refine (Compiling.alike_locate schema path).bind fun destination _ hd => ?_
      obtain ⟨rfl, hleads, -⟩ := hd
      cases destination with
      | column place relation => exact Compiling.alike_pure .none
      | toMany place relation scope rest => exact Compiling.alike_pure .none
      | json place rest =>
          cases rest with
          | nil => exact Compiling.alike_pure .none
          | cons s rest =>
              rw [hleads.json place s rest rfl] at h
              refine (Compiling.alike_result _).bind fun _ _ _ => ?_
              exact Compiling.alike_pure (.some ⟨rfl, h⟩)

mutual

/-- The tests of a filter are alike. -/
theorem alike_testsOf
    {schema : Schema} :
    ∀ {collection : String} {f f' : Filter}, Filter.Indistinct schema R collection f f' →
      Compiling.Alike R collection (List.Forall₂ (DocumentTest.Alike R)) (testsOf schema f)
        (testsOf schema f')
  | _, _, _, .and h => by
      rw [testsOf, testsOf]
      exact alike_testsOfAll h
  | _, _, _, .or _ => by
      rw [testsOf, testsOf]
      exact Compiling.alike_pure .nil
  | _, _, _, .compare id path h => by
      rw [testsOf, testsOf]
      refine (alike_testOf? id h).bind fun t t' ht => Compiling.alike_pure ?_
      cases ht with
      | none => exact .nil
      | some ht => exact .cons ht .nil
  | _, _, _, .quantify _ _ _ _ => by
      rw [testsOf, testsOf]
      exact Compiling.alike_pure .nil

theorem alike_testsOfAll
    {schema : Schema} :
    ∀ {collection : String} {fs fs' : List Filter}, Filter.AllIndistinct schema R collection fs fs' →
      Compiling.Alike R collection (List.Forall₂ (DocumentTest.Alike R)) (testsOfAll schema fs)
        (testsOfAll schema fs')
  | _, _, _, .nil => by
      rw [testsOfAll]
      exact Compiling.alike_pure .nil
  | _, _, _, .cons h hrest => by
      rw [testsOfAll, testsOfAll]
      refine (alike_testsOf h).bind fun tests tests' htests => ?_
      refine (alike_testsOfAll hrest).bind fun others others' hothers => ?_
      exact Compiling.alike_pure (List.rel_append htests hothers)

end

namespace DocumentTest

theorem Alike.groupKey_eq
    {t t' : DocumentTest}
    (h : t.Alike R t') :
    t'.groupKey = t.groupKey := by
  rw [h.place]
  rfl

theorem Alike.endsInMember_eq
    {t t' : DocumentTest}
    (h : t.Alike R t') :
    t'.endsInMember = t.endsInMember := by
  rw [h.place]
  rfl

/-- Tests that are alike are grouped alike. -/
theorem alike_groups
    {tests tests' : List DocumentTest}
    (h : List.Forall₂ (Alike R) tests tests') :
    List.Forall₂ (List.Forall₂ (Alike R)) (groups (tests.filter endsInMember))
      (groups (tests'.filter endsInMember)) := by
  refine rel_groups (fun t t' u u' ht hu => ?_) (List.rel_filter (fun t t' ht => ?_) h)
  · rw [ht.groupKey_eq, hu.groupKey_eq]
  · show t.endsInMember = true ↔ t'.endsInMember = true
    rw [ht.endsInMember_eq]

end DocumentTest

theorem alike_foldGroup
    {group group' : List DocumentTest}
    (hR : ∀ v, R v v) (h : List.Forall₂ (DocumentTest.Alike R) group group') :
    Compiling.Alike R collection (fun _ _ => True) (foldGroup group) (foldGroup group') := by
  cases h with
  | nil => exact Compiling.alike_pure trivial
  | @cons first first' rest rest' hfirst hrest =>
      cases hrest with
      | nil => exact Compiling.alike_pure trivial
      | @cons second second' rest rest' hsecond hrest =>
          have hid {t t' : DocumentTest} (ht : t.Alike R t') : t.id = t'.id := by
            rw [ht.place]
          have hothers : List.Forall₂ (fun x x' => x.1 = x'.1 ∧ AlikeIfAny R x.2 x'.2)
              ((second :: rest).map fun t => (t.id, (none : Option Expr)))
              ((second' :: rest').map fun t => (t.id, none)) := by
            rw [List.forall₂_map_left_iff, List.forall₂_map_right_iff]
            exact (List.Forall₂.cons hsecond hrest).imp fun _ _ ht => ⟨hid ht, .none⟩
          rw [foldGroup, foldGroup]
          refine (Compiling.alike_label (DocumentTest.inStep_together
            (.cons hfirst (.cons hsecond hrest)) hR)).bind fun e e' he => ?_
          refine Attempt.relates_update fun p p' hp => ⟨trivial, hp.labels, hp.plan,
            hp.collection, ?_⟩
          exact List.rel_append hp.folded (.cons ⟨hid hfirst, he⟩ hothers)

theorem alike_foldGroups
    {groups groups' : List (List DocumentTest)}
    (hR : ∀ v, R v v)
    (h : List.Forall₂ (List.Forall₂ (DocumentTest.Alike R)) groups groups') :
    Compiling.Alike R collection (fun _ _ => True) (foldGroups groups) (foldGroups groups') := by
  induction h with
  | nil => exact Compiling.alike_pure trivial
  | cons hgroup _ ih =>
      rw [foldGroups, foldGroups]
      exact (alike_foldGroup hR hgroup).bind fun _ _ _ => ih

theorem alike_foldSiblings
    {schema : Schema} {children children' : List Filter}
    (hR : ∀ v, R v v) (h : Filter.AllIndistinct schema R collection children children') :
    Compiling.Alike R collection (fun _ _ => True) (foldSiblings schema children)
      (foldSiblings schema children') := by
  rw [foldSiblings, foldSiblings]
  refine (alike_testsOfAll h).bind fun tests tests' htests => ?_
  exact alike_foldGroups hR (DocumentTest.alike_groups htests)

/-! ## Filters side by side -/

theorem Filter.Indistinct.isMatchAll_eq
    {schema : Schema} {f f' : Filter}
    (h : Filter.Indistinct schema R collection f f') :
    f.isMatchAll = f'.isMatchAll := by
  cases h with
  | and h => cases h <;> rfl
  | _ => rfl

theorem Filter.AllIndistinct.any_isMatchAll
    {schema : Schema} {fs fs' : List Filter}
    (h : Filter.AllIndistinct schema R collection fs fs') :
    fs.any Filter.isMatchAll = fs'.any Filter.isMatchAll ∧ fs.length = fs'.length := by
  induction fs generalizing fs' with
  | nil =>
      cases h
      exact ⟨rfl, rfl⟩
  | cons child rest ih =>
      cases h with
      | cons hchild hrest =>
          obtain ⟨hany, hlength⟩ := ih hrest
          rw [List.any_cons, List.any_cons, hchild.isMatchAll_eq, hany, List.length_cons,
            List.length_cons, hlength]
          exact ⟨rfl, rfl⟩

mutual

theorem alike_planJoins
    {s : Setting} :
    ∀ {collection : String} {f f' : Filter}, Filter.Indistinct s.schema R collection f f' →
      Compiling.Alike R collection (fun _ _ => True) (planJoins s f) (planJoins s f')
  | _, _, _, .and h => by
      rw [planJoins, planJoins]
      exact alike_planAllJoins h
  | _, _, _, .or h => by
      rw [planJoins, planJoins, h.any_isMatchAll.1, h.any_isMatchAll.2]
      split
      · exact Compiling.alike_pure trivial
      · exact alike_planAllJoins h
  | _, _, _, .compare id path h => by
      rw [planJoins, planJoins]
      exact (Compiling.alike_locate s.schema path).bind fun _ _ _ => Compiling.alike_pure trivial
  | _, _, _, .quantify id field q h => by
      rw [planJoins, planJoins]
      exact (Compiling.alike_locate s.schema [field]).bind fun _ _ _ => Compiling.alike_pure trivial

theorem alike_planAllJoins
    {s : Setting} :
    ∀ {collection : String} {fs fs' : List Filter},
      Filter.AllIndistinct s.schema R collection fs fs' →
        Compiling.Alike R collection (fun _ _ => True) (planAllJoins s fs) (planAllJoins s fs')
  | _, _, _, .nil => by
      rw [planAllJoins]
      exact Compiling.alike_pure trivial
  | _, _, _, .cons h hrest => by
      rw [planAllJoins, planAllJoins]
      exact (alike_planJoins h).bind fun _ _ _ => alike_planAllJoins hrest

end

mutual

/-- Filters that differ in operands only are compiled to alike conditions, or fail
with the same error. -/
theorem alike_filterCondition
    {s : Setting}
    (hR : ∀ v, R v v) :
    ∀ {collection : String} {f f' : Filter}, Filter.Indistinct s.schema R collection f f' →
      Compiling.Alike R collection (AlikeIfAny R) (filterCondition s f) (filterCondition s f')
  | _, _, _, .and h => by
      rw [filterCondition, filterCondition]
      refine (alike_foldSiblings hR h).bind fun _ _ _ => ?_
      refine (alike_allConditions hR h).bind fun es es' hes => ?_
      exact Compiling.alike_pure (Expr.alike_group? hes .and)
  | _, _, _, .or h => by
      rw [filterCondition, filterCondition, h.any_isMatchAll.1]
      split
      · exact Compiling.alike_pure .none
      · refine (alike_alternativeConditions hR h).bind fun es es' hes => Compiling.alike_pure ?_
        cases hes with
        | none => exact .none
        | some hes => exact Expr.alike_group? hes .or
  | _, .compare id path c o, .compare _ _ _ o', .compare _ _ h => by
      rw [filterCondition, filterCondition]
      refine alike_folded id
        (f := fun e => match e with
          | some condition => pure condition
          | none => comparisonCondition s.schema id c o path.length path)
        (g := fun e => match e with
          | some condition => pure condition
          | none => comparisonCondition s.schema id c o' path.length path) fun e e' he => ?_
      cases he with
      | some he => exact Compiling.alike_pure he
      | none => exact alike_comparisonCondition hR id path.length _ path h
  | _, _, _, .quantify id field q h => by
      rw [filterCondition, filterCondition, quantifiedCondition_eq, quantifiedCondition_eq]
      refine (alike_quantifierProbe s.schema field q).bind fun probe _ hprobe => ?_
      obtain ⟨rfl, hrows⟩ := hprobe
      refine alike_asked hR probe s.schema probe.key (q == .none) ?_
      exact (alike_planJoins (h probe.related hrows)).bind fun _ _ _ =>
        alike_filterCondition hR (h probe.related hrows)

theorem alike_allConditions
    {s : Setting}
    (hR : ∀ v, R v v) :
    ∀ {collection : String} {fs fs' : List Filter},
      Filter.AllIndistinct s.schema R collection fs fs' →
        Compiling.Alike R collection (List.Forall₂ (Expr.Alike R)) (allConditions s fs)
          (allConditions s fs')
  | _, _, _, .nil => by
      rw [allConditions]
      exact Compiling.alike_pure .nil
  | _, _, _, .cons h hrest => by
      rw [allConditions, allConditions]
      refine (alike_filterCondition hR h).bind fun e e' he => ?_
      refine (alike_allConditions hR hrest).bind fun es es' hes => ?_
      exact Compiling.alike_pure (List.rel_append (forall₂_toList he) hes)

theorem alike_alternativeConditions
    {s : Setting}
    (hR : ∀ v, R v v) :
    ∀ {collection : String} {fs fs' : List Filter},
      Filter.AllIndistinct s.schema R collection fs fs' →
        Compiling.Alike R collection (Option.Rel (List.Forall₂ (Expr.Alike R)))
          (alternativeConditions s fs) (alternativeConditions s fs')
  | _, _, _, .nil => by
      rw [alternativeConditions]
      exact Compiling.alike_pure (.some .nil)
  | _, _, _, .cons h hrest => by
      rw [alternativeConditions, alternativeConditions]
      refine (alike_filterCondition hR h).bind fun e e' he => ?_
      cases he with
      | none => exact Compiling.alike_pure .none
      | some he =>
          refine (alike_alternativeConditions hR hrest).bind fun es es' hes => ?_
          refine Compiling.alike_pure ?_
          cases hes with
          | none => exact .none
          | some hes => exact .some (.cons he hes)

end

end Conditions

/-! ## Statements -/

/-- Compiled filters that differ in values only. -/
structure Compiled.Alike (R : Value → Value → Prop) (c c' : Compiled) : Prop where
  collection : c.collection = c'.collection
  condition : AlikeIfAny R c.condition c'.condition
  joins : c.joins = c'.joins
  labels : c.labels = c'.labels

theorem Setting.alike_compileTree
    {R : Value → Value → Prop} {s : Setting} {collection : String} {f f' : Filter}
    (hR : ∀ v, R v v) (h : Filter.Indistinct s.schema R collection f f') :
    SameOutcome (Compiled.Alike R) (s.compileTree collection f) (s.compileTree collection f') := by
  have hstart : Progress.Alike R collection (Progress.start collection)
      (Progress.start collection) :=
    ⟨rfl, rfl, rfl, .nil⟩
  have hrun : Compiling.Alike R collection (AlikeIfAny R) (s.run f) (s.run f') :=
    (alike_planJoins h).bind fun _ _ _ => alike_filterCondition hR h
  have hstep := hrun _ _ hstart
  unfold Setting.compileTree
  generalize (s.run f).run (Progress.start collection) = outcome at hstep ⊢
  generalize (s.run f').run (Progress.start collection) = outcome' at hstep ⊢
  cases hstep with
  | error e => exact .error e
  | ok hQ =>
      obtain ⟨hcondition, hp⟩ := hQ
      exact .ok ⟨rfl, hcondition, by rw [hp.plan], hp.labels⟩

theorem Setting.compile_of_read
    {s : Setting} {collection primary : String} {filter : Json} {tree : Filter}
    (hprimary : s.schema.primaryKey collection = .ok primary)
    (htree : Filter.ofJson s.options.maxDepth filter = .ok tree) :
    s.compile collection filter = s.compileTree collection tree := by
  rw [Setting.compile, hprimary, htree]
  rfl

/-- Documents that are the same but for operands are compiled alike. -/
theorem Setting.alike_compile
    {s : Setting} {collection : String} {filter filter' : Json}
    (hsame : Filter.SameDocument filter filter')
    (hcasts : ∀ tree tree', Filter.ofJson s.options.maxDepth filter = .ok tree →
      Filter.ofJson s.options.maxDepth filter' = .ok tree' →
      tree.casts s.schema collection = tree'.casts s.schema collection) :
    (∃ e, s.compile collection filter = .error e ∧ s.compile collection filter' = .error e) ∨
    ∃ tree tree' c c', Filter.ofJson s.options.maxDepth filter = .ok tree ∧
      Filter.ofJson s.options.maxDepth filter' = .ok tree' ∧
      s.compile collection filter = .ok c ∧ s.compile collection filter' = .ok c' ∧
      c.Alike (tree.BoundAlike tree') c' := by
  cases hprimary : s.schema.primaryKey collection with
  | error e =>
      refine .inl ⟨e, ?_, ?_⟩
      · rw [Setting.compile, hprimary]
        rfl
      · rw [Setting.compile, hprimary]
        rfl
  | ok primary =>
      rcases (Filter.parallel_ofJson hsame s.options.maxDepth).exists_or with
        ⟨e, htree, htree'⟩ | ⟨tree, tree', htree, htree', hparallel⟩
      · refine .inl ⟨e, ?_, ?_⟩
        · rw [Setting.compile, hprimary, htree]
          rfl
        · rw [Setting.compile, hprimary, htree']
          rfl
      · have hindistinct : Filter.Indistinct s.schema (tree.BoundAlike tree') collection
            tree tree' :=
          hparallel.indistinct collection (hcasts tree tree' htree htree')
            fun id c o o' v v' ho ho' hv => .inr ⟨id, c, o, o', ho, ho', hv⟩
        have hcompiled := Setting.alike_compileTree (fun _ => .inl rfl) hindistinct
        rw [compile_of_read hprimary htree, compile_of_read hprimary htree']
        rcases hcompiled.exists_or with herror | ⟨c, c', hc, hc', halike⟩
        · exact .inl herror
        · exact .inr ⟨tree, tree', c, c', htree, htree', hc, hc', halike⟩

/-- Two statements with one text.  Their parameters stand for items that are the same,
but for values that `R` relates. -/
structure Sql.Clause.SameBut (R : Value → Value → Prop) (d : Sql.Dialect)
    (items items' : List Sql.Item) (k k' : Sql.Clause) : Prop where
  sql : k.sql = k'.sql
  params : k.params = items.map (Sql.Item.param d)
  params' : k'.params = items'.map (Sql.Item.param d)
  items : List.Forall₂ (Sql.Item.Alike R) items items'

theorem Compiled.Alike.clause
    {R : Value → Value → Prop} {c c' : Compiled}
    (h : c.Alike R c') (d : Sql.Dialect) :
    Sql.Clause.SameBut R d (Expr.optionItems d false c.condition)
      (Expr.optionItems d false c'.condition) (c.clause d) (c'.clause d) := by
  have hcondition := h.condition
  unfold Compiled.clause
  generalize c.condition = e at hcondition ⊢
  generalize c'.condition = e' at hcondition ⊢
  cases hcondition with
  | none => exact ⟨rfl, rfl, rfl, .nil⟩
  | @some e e' he =>
      exact ⟨he.sql_eq d, Expr.params_eq d e, Expr.params_eq d e', he.items d⟩

theorem Compiled.Alike.selection
    {R : Value → Value → Prop} {c c' : Compiled}
    (hR : ∀ v, R v v) (h : c.Alike R c') (d : Sql.Dialect) (names : List String) :
    Sql.Clause.SameBut R d ((c.selection names).items d false)
      ((c'.selection names).items d false) ((c.selection names).clause d)
      ((c'.selection names).clause d) := by
  have hselect : (c.selection names).Alike R (c'.selection names) := by
    unfold Compiled.selection Compiled.columns
    rw [← h.collection, ← h.joins]
    exact Sql.Select.alike_filter hR _ h.condition
  exact ⟨hselect.sql_eq d, Sql.Select.params_eq d _, Sql.Select.params_eq d _, hselect.items d⟩

/-- **Operands do not reach the statement.**  Two filters that are the same but for
the operands of comparisons are compiled, where corresponding operands give criteria
of one shape, and the same cast inside JSON documents.  Both fail with the same
error, or both succeed with the same joins and labels.  Then the condition and every
selection have one text, and their parameters are the same, but for values for which
the operands of one and the same comparison stand in the two filters. -/
theorem compile_ignores_operands
    {s : Setting} {collection : String} {filter filter' : Json}
    (hsame : Filter.SameDocument filter filter')
    (hcasts : ∀ tree tree', Filter.ofJson s.options.maxDepth filter = .ok tree →
      Filter.ofJson s.options.maxDepth filter' = .ok tree' →
      tree.casts s.schema collection = tree'.casts s.schema collection) :
    (∃ e, s.compile collection filter = .error e ∧ s.compile collection filter' = .error e) ∨
    ∃ tree tree' c c', Filter.ofJson s.options.maxDepth filter = .ok tree ∧
      Filter.ofJson s.options.maxDepth filter' = .ok tree' ∧
      s.compile collection filter = .ok c ∧ s.compile collection filter' = .ok c' ∧
      c.joins = c'.joins ∧ c.labels = c'.labels ∧
      ∀ d names,
        Sql.Clause.SameBut (tree.BoundAlike tree') d (Expr.optionItems d false c.condition)
          (Expr.optionItems d false c'.condition) (c.clause d) (c'.clause d) ∧
        Sql.Clause.SameBut (tree.BoundAlike tree') d ((c.selection names).items d false)
          ((c'.selection names).items d false) ((c.selection names).clause d)
          ((c'.selection names).clause d) := by
  rcases Setting.alike_compile hsame hcasts with herror | ⟨tree, tree', c, c', h⟩
  · exact .inl herror
  · obtain ⟨htree, htree', hc, hc', halike⟩ := h
    exact .inr ⟨tree, tree', c, c', htree, htree', hc, hc', halike.joins, halike.labels,
      fun d names => ⟨halike.clause d, halike.selection (fun _ => .inl rfl) d names⟩⟩

/-- Books with a title and a document about them. -/
def shelf : Setting where
  schema := {
    collections := [("books", {
      primary := "id"
      fields := [
        ("title", { type := .string, specials := .ofFlags [] }),
        ("about", { type := .json, specials := .ofFlags [] })] })]
    relations := [] }
  options := {}

/-- Books with a text in their title and more than some number of pages. -/
def titled (text : String) (pages : Int) : Json :=
  .obj [
    ("title", .obj [("_contains", .str text)]),
    ("about", .obj [("pages", .obj [("_gt", .num (.int pages))])])]

theorem sameDocument_titled :
    Filter.SameDocument (titled "sea" 300) (titled "' OR 1 = 1 --" 5) := by
  have htext : (Comparison.pattern ⟨.anywhere, false, false⟩).SameShape (.str "sea")
      (.str "' OR 1 = 1 --") := by
    simp [Comparison.SameShape, Comparison.criterion, Value.ofJson, Value.toText?, Except.map,
      Criterion.shape, Criterion.map]
  refine .nested (.cons (.nested (by decide +kernel) ?_)
    (.cons (.nested (by decide +kernel) ?_) .nil))
  · exact .cons (.operand (by decide +kernel) htext) .nil
  · refine .cons (.nested (by decide +kernel) ?_) .nil
    exact .cons (.operand (c := .inequality .gt) (by decide +kernel) rfl) .nil

theorem casts_titled
    {tree tree' : Filter}
    (htree : Filter.ofJson shelf.options.maxDepth (titled "sea" 300) = .ok tree)
    (htree' : Filter.ofJson shelf.options.maxDepth (titled "' OR 1 = 1 --" 5) = .ok tree') :
    tree.casts shelf.schema "books" = tree'.casts shelf.schema "books" := by
  have hcasts : (Filter.ofJson shelf.options.maxDepth (titled "sea" 300)).toOption.map
      (Filter.casts shelf.schema "books") =
        (Filter.ofJson shelf.options.maxDepth (titled "' OR 1 = 1 --" 5)).toOption.map
          (Filter.casts shelf.schema "books") := by
    decide +kernel
  rw [htree, htree'] at hcasts
  exact Option.some.inj hcasts

theorem compile_ignores_operands_titled :
    ∃ c c', shelf.compile "books" (titled "sea" 300) = .ok c ∧
      shelf.compile "books" (titled "' OR 1 = 1 --" 5) = .ok c' ∧
      c.labels = c'.labels ∧ ∀ d, (c.clause d).sql = (c'.clause d).sql := by
  have hok : (shelf.compile "books" (titled "sea" 300)).isOk = true := by
    decide +kernel
  rcases compile_ignores_operands sameDocument_titled fun _ _ => casts_titled with
    ⟨e, herror, -⟩ | ⟨tree, tree', c, c', -, -, hc, hc', -, hlabels, h⟩
  · rw [herror] at hok
    cases hok
  · exact ⟨c, c', hc, hc', hlabels, fun d => (h d []).1.sql⟩

end RowFilter
