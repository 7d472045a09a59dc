import RowFilter.Proofs.Closures
import RowFilter.Proofs.Places

/-!
# The conditions that filters become

A compiled condition is built from few forms: a comparison of a field or of a number
of rows, the question whether a JSON document has a row that passes some tests, the
question whether a key is among the rows of a query, and groups of such conditions.
In each of them the references are to row sources in sight, and new row sources get
labels that are not in use.

* `Ground.Emitted`: these forms, with what is in sight at each of them.
* `emitted_of_compile`: the condition of a compiled filter has one of them.
-/

namespace RowFilter

open Sql (Expr Join Select Source)
open Labels (Apart)

/-- The query of a probe whose rows go by `label`. -/
def Probe.inquiry (probe : Probe) (label : String) (joins : List Join) : Inquiry where
  rows := (Select.of [.column label probe.column]
    (.table { name := probe.related } (some label))).join joins
  discriminator := probe.discriminator.map (Link.discriminates label)

theorem Probe.meeting_eq
    (probe : Probe) (label : String) (joins : List Join) (condition : Option Expr) :
    (probe.inquiry label joins).meeting condition =
      ⟨[.column label probe.column], some (.table { name := probe.related } (some label)), joins,
        Expr.group? .and
          (condition.toList ++ (probe.discriminator.map (Link.discriminates label)).toList)⟩ := by
  simp [Probe.inquiry, Inquiry.meeting, Select.filter, Select.join, Select.of]

/-- The row source of the query of a probe. -/
def Probe.source (probe : Probe) (label : String) : Source :=
  ⟨label, some probe.related⟩

/-- A condition on a JSON row that comes from a comparison. -/
def RowTest (label : String) (e : Expr) : Prop :=
  ∃ key c operand criterion, Comparison.criterion c operand = .ok criterion ∧
    DocumentTest.condition? label key criterion = some e

/-- The key that is looked up stands in sight, and the rows have the columns that it is
looked up by. -/
structure Probe.Sound (g : Ground) (labelled : List Source) (probe : Probe) : Prop where
  key : ∃ qualifier field, probe.key = .column qualifier field ∧ g.Refers labelled qualifier field
  column : g.schema.Knows g.segments probe.related probe.column
  discriminator : ∀ d ∈ probe.discriminator, ∃ r ∈ g.schema.relations,
    r.LeadsTo g.segments probe.related ∧ r.collectionField = some d.1 ∧ r.collection = d.2

namespace Ground

variable (g : Ground)

/-- A JSON column in sight. -/
def Document (labelled : List Source) (document : Expr) : Prop :=
  ∃ place : Place, place.In g labelled ∧ place.field.type.isJson = true ∧ document = place.column

/-- The rows behind the link point back, by a relation, to the primary key of a row source in
sight. -/
def PointsBack (labelled : List Source) (link : Link) : Prop :=
  ∃ qualifier collection primary r, link.parentKey = .column qualifier primary ∧
    ⟨qualifier, some collection⟩ ∈ g.sight labelled ∧
    g.schema.primaryKey collection = .ok primary ∧ r ∈ g.schema.relations ∧
    r.collection = collection ∧ r.LeadsTo g.segments link.related ∧
    r.relatedField = some link.relatedField

/-- What a comparison can be about: a field that it fits, without a relation or with one to
one row, or a number of rows. -/
inductive Subject (labelled : List Source) (c : Comparison) : Expr → Prop
  | field {place : Place} {relation : Option Relation}
      (hplace : place.In g labelled)
      (hcheck : place.check relation (.compare c) = .ok ())
      (hrelation : g.schema.relation? place.collection place.segment.name = relation)
      (hone : ∀ r ∈ relation, r.cardinality.leadsToMany = false) :
      Subject labelled c place.compared
  | count {link : Link} {label : String}
      (hlink : link.probe.Sound g labelled)
      (hlabel : Apart (labelled.map Source.name) label)
      (hback : g.PointsBack labelled link) :
      Subject labelled c (link.countRows label)

/-- The conditions that filters become, where the row sources `labelled` are in sight. -/
inductive Emitted : List Source → Expr → Prop
  | asked {labelled : List Source} {c : Comparison} {operand : Json} {criterion : Criterion}
      {target e : Expr}
      (htarget : g.Subject labelled c target)
      (hcriterion : c.criterion operand = .ok criterion)
      (he : criterion.apply target = some e) :
      Emitted labelled e
  | matched {labelled : List Source} {document condition : Expr} {label : String}
      {conditions : List Expr}
      (hdocument : g.Document labelled document)
      (path : Sql.PathArg)
      (hlabel : Apart (labelled.map Source.name) label)
      (hconditions : ∀ e ∈ conditions, RowTest label e)
      (hcondition : Expr.group? .and conditions = some condition) :
      Emitted labelled (DocumentTest.existsMatch document path label condition)
  | among {labelled : List Source} {probe : Probe} {label : String} {joins : List Join}
      {condition : Option Expr}
      (hprobe : probe.Sound g labelled)
      (negated : Bool)
      (hlabel : Apart (labelled.map Source.name) label)
      (hjoins : g.Joined (labelled ++ [probe.source label]) joins)
      (hcondition : ∀ e ∈ condition,
        Emitted (labelled ++ [probe.source label] ++ joins.map Join.source) e) :
      Emitted labelled ((probe.inquiry label joins).predicate probe.key negated condition)
  | group {labelled : List Source} {operands : List Expr}
      (op : Sql.Connective)
      (hlength : 2 ≤ operands.length)
      (hoperands : ∀ e ∈ operands, Emitted labelled e) :
      Emitted labelled (.logical op operands)

/-- The condition has one of the forms, if there is one. -/
def EmittedIfAny (labelled : List Source) (condition : Option Expr) : Prop :=
  ∀ e ∈ condition, g.Emitted labelled e

variable {g}

theorem emittedIfAny_none
    {labelled : List Source} :
    g.EmittedIfAny labelled none := by
  rintro e ⟨⟩

theorem emittedIfAny_group?
    {labelled : List Source} {operands : List Expr}
    (op : Sql.Connective) (h : ∀ e ∈ operands, g.Emitted labelled e) :
    g.EmittedIfAny labelled (Expr.group? op operands) := by
  intro e he
  match operands, h, he with
  | [], _, he => cases he
  | [_], h, he =>
      cases he
      exact h _ List.mem_cons_self
  | _ :: _ :: _, h, he =>
      cases he
      exact .group op (by simp) h

end Ground

/-! ## Links and probes -/

section Links

variable {g : Ground} {labelled : List Source}

theorem Place.In.refers
    {place : Place}
    (h : place.In g labelled) :
    g.Refers labelled place.qualifier place.segment.name :=
  ⟨place.collection, h.source, Schema.knows_field h.field⟩

theorem Relation.leadsTo_of_target
    {place : Place} {relation : Relation} {scope : Option String} {related : String}
    (hplace : place.In g labelled)
    (hrelation : g.schema.relation? place.collection place.segment.name = some relation)
    (hscope : place.segment.choose relation = .ok scope)
    (htarget : relation.target scope = .ok related) :
    relation.LeadsTo g.segments related := by
  cases scope with
  | none => exact .inl (Relation.related_eq_ok_iff.1 htarget)
  | some chosen =>
      cases htarget
      have hfield := (Schema.eq_of_relation? hrelation).2.2
      exact .inr ⟨place.segment, hplace.segment, hfield.symm, hscope⟩

/-- The rows behind a relation are found by fields that they have. -/
theorem Link.sound_of_ok
    {place : Place} {relation : Relation} {scope : Option String} {link : Link}
    (hplace : place.In g labelled)
    (hrelation : g.schema.relation? place.collection place.segment.name = some relation)
    (hscope : place.segment.choose relation = .ok scope)
    (h : Link.of g.schema place relation scope = .ok link) :
    link.probe.Sound g labelled := by
  have hmade := Link.made_of_ok h
  have hleads := Relation.leadsTo_of_target hplace hrelation hscope hmade.related
  obtain ⟨hmem, hcollection, -⟩ := Schema.eq_of_relation? hrelation
  obtain ⟨primary, hprimary, hkey⟩ := hmade.parentKey
  refine ⟨⟨place.qualifier, primary, hkey, place.collection, hplace.source,
    Schema.knows_primary hprimary⟩, ?_, ?_⟩
  · exact .inr (.inr ⟨relation, hmem, hleads, .inl hmade.relatedField⟩)
  · intro d hd
    change link.discriminator = some d at hd
    rw [hmade.discriminator] at hd
    obtain ⟨_, -, hd⟩ := Option.bind_eq_some_iff.1 hd
    obtain ⟨field, hfield, rfl⟩ := Option.map_eq_some_iff.1 hd
    exact ⟨relation, hmem, hleads, hfield, hcollection⟩

theorem Link.pointsBack_of_ok
    {place : Place} {relation : Relation} {scope : Option String} {link : Link}
    (hplace : place.In g labelled)
    (hrelation : g.schema.relation? place.collection place.segment.name = some relation)
    (hscope : place.segment.choose relation = .ok scope)
    (h : Link.of g.schema place relation scope = .ok link) :
    g.PointsBack labelled link := by
  have hmade := Link.made_of_ok h
  have hleads := Relation.leadsTo_of_target hplace hrelation hscope hmade.related
  obtain ⟨hmem, hcollection, -⟩ := Schema.eq_of_relation? hrelation
  obtain ⟨primary, hprimary, hkey⟩ := hmade.parentKey
  exact ⟨place.qualifier, place.collection, primary, relation, hkey, hplace.source, hprimary, hmem,
    hcollection, hleads, hmade.relatedField⟩

end Links

/-! ## Steps of a compilation whose paths are settled -/

/-- From a state with the plan, whose labels reserve the names in sight, the step
returns to one, with a result that has a property. -/
def Compiling.Emits {α : Type} (g : Ground) (outer : List Source) (plan : JoinPlan)
    (x : Compiling α) (Q : α → Prop) : Prop :=
  Attempt.Ensures (fun p => p.plan = plan ∧ p.Situated g outer) x
    fun a p => (p.plan = plan ∧ p.Situated g outer) ∧ Q a

namespace Compiling

variable {α β : Type} {g : Ground} {outer : List Source} {plan : JoinPlan} {Q : α → Prop}

theorem emits_pure
    {a : α}
    (h : Q a) :
    Emits g outer plan (pure a) Q :=
  Attempt.ensures_pure fun _ hp => ⟨hp, h⟩

theorem emits_fail
    (e : QueryError) :
    Emits g outer plan (Attempt.fail e) Q :=
  Attempt.ensures_fail e

theorem emits_ofExcept
    {result : Except QueryError α}
    (h : ∀ a, result = .ok a → Q a) :
    Emits g outer plan (Attempt.ofExcept result) Q :=
  Attempt.ensures_ofExcept fun _ a hp hresult => ⟨hp, h a hresult⟩

theorem Emits.bind
    {x : Compiling α} {f : α → Compiling β} {R : β → Prop}
    (hx : Emits g outer plan x Q) (hf : ∀ a, Q a → Emits g outer plan (f a) R) :
    Emits g outer plan (x >>= f) R :=
  Attempt.Ensures.bind hx fun a p hp => hf a hp.2 p hp.1

/-- A step on the labels that keeps the names in sight reserved. -/
theorem emits_label
    {step : Attempt Labels α}
    (h : Attempt.Ensures (fun l => l.Reserves ((plan.labelled outer).map Source.name)) step
      fun a l => l.Reserves ((plan.labelled outer).map Source.name) ∧ Q a) :
    Emits g outer plan (label step) Q := by
  refine Attempt.ensures_focus ?_
  rintro p ⟨rfl, hp⟩
  refine (h.weaken ?_).mono fun a l hl => ?_
  · rintro l rfl
    exact hp.labels
  · exact ⟨⟨rfl, hp.plan, hl.1⟩, hl.2⟩

/-- A settled path leads to a place in sight. -/
theorem emits_locate
    {path : List Segment} {destination : Destination}
    (hpath : path ⊆ g.segments) (h : plan.destination? g.schema path = some destination) :
    Emits g outer plan (locate g.schema path)
      fun found => found = destination ∧ found.Sound g (plan.labelled outer) := by
  rintro p ⟨rfl, hp⟩ found q hrun
  rw [run_locate h] at hrun
  cases hrun
  exact ⟨⟨rfl, hp⟩, rfl, hp.sound_of_destination? hpath h⟩

theorem ensures_inQuery
    {P : Progress → Prop} {step : Compiling α} {collection qualifier : String}
    {Q : α × List Join → Progress → Prop}
    (h : ∀ p, P p → Attempt.Ensures (fun q => q = p.inside collection qualifier) step
      fun a q => Q (a, q.plan.joins) { q with plan := p.plan }) :
    Attempt.Ensures P (inQuery collection qualifier step) Q := by
  intro p hp x t hrun
  have hstep := h p hp (p.inside collection qualifier) rfl
  rw [run_inQuery, Prod.mk.injEq] at hrun
  generalize step.run (p.inside collection qualifier) = outcome at hrun hstep
  obtain ⟨result, q⟩ := outcome
  obtain ⟨hresult, rfl⟩ := hrun
  cases result with
  | error e => cases hresult
  | ok a =>
      cases hresult
      exact hstep a q rfl

/-- A step inside the query of a probe sees the row source of the query besides. -/
theorem emits_enter
    {probe : Probe} {step : Compiling α} {R : List Source → α → Prop}
    (h : ∀ label, Attempt.Ensures
      (fun p => p.Situated g (plan.labelled outer ++ [probe.source label]) ∧
        p.plan = JoinPlan.start probe.related label)
      step fun a p => p.Situated g (plan.labelled outer ++ [probe.source label]) ∧
        R (p.plan.labelled (plan.labelled outer ++ [probe.source label])) a) :
    Emits g outer plan (probe.enter g.schema step) fun x => ∃ label joins,
      x.2 = probe.inquiry label joins ∧ Apart ((plan.labelled outer).map Source.name) label ∧
      g.Joined (plan.labelled outer ++ [probe.source label]) joins ∧
      R (plan.labelled outer ++ [probe.source label] ++ joins.map Join.source) x.1 := by
  unfold Probe.enter
  refine (emits_ofExcept (Q := fun _ => True) fun _ _ => trivial).bind fun _ _ => ?_
  refine Attempt.Ensures.bind
    (R := fun label p => (p.plan = plan ∧ plan.Sound g outer) ∧
      Apart ((plan.labelled outer).map Source.name) label ∧
      p.labels.Reserves ((plan.labelled outer ++ [probe.source label]).map Source.name)) ?_
    fun label => ?_
  · refine Attempt.ensures_focus ?_
    rintro p ⟨rfl, hp⟩
    refine Attempt.ensures_ofState ?_
    rintro l rfl
    obtain ⟨hapart, hreserves⟩ := Labels.reserves_fresh probe.related hp.labels
    refine ⟨⟨rfl, hp.plan⟩, hapart, ?_⟩
    rw [List.map_append]
    exact hreserves
  · refine Attempt.Ensures.bind
      (R := fun x p => (p.plan = plan ∧ p.Situated g outer) ∧
        Apart ((plan.labelled outer).map Source.name) label ∧
        g.Joined (plan.labelled outer ++ [probe.source label]) x.2 ∧
        R (plan.labelled outer ++ [probe.source label] ++ x.2.map Join.source) x.1) ?_ fun x => ?_
    · refine ensures_inQuery ?_
      rintro p ⟨⟨rfl, hplan⟩, hapart, hreserves⟩
      refine ((h label).weaken ?_).mono fun a q hq => ?_
      · rintro q rfl
        refine ⟨⟨JoinPlan.sound_start ?_, ?_⟩, rfl⟩
        · exact List.mem_cons_of_mem _ (List.mem_append_right _ (by simp [Probe.source]))
        · change p.labels.Reserves (((JoinPlan.start _ _).labelled _).map Source.name)
          rwa [JoinPlan.labelled_start]
      · obtain ⟨hq, hR⟩ := hq
        refine ⟨⟨rfl, hplan, hq.labels.subset ?_⟩, hapart, hq.plan.joined, hR⟩
        refine List.map_subset _ ?_
        exact List.subset_append_of_subset_left _ (List.subset_append_left _ _)
    · refine Attempt.ensures_pure ?_
      rintro p ⟨hp, hapart, hjoined, hR⟩
      exact ⟨hp, label, x.2, rfl, hapart, hjoined, hR⟩

end Compiling

/-! ## Tests inside documents -/

/-- The test reads a JSON column in sight, and comes from a comparison. -/
structure DocumentTest.Sound (g : Ground) (labelled : List Source) (t : DocumentTest) : Prop where
  document : g.Document labelled t.column
  operator : ∃ c, t.operator = .compare c

section Tests

variable {g : Ground} {labelled : List Source}

theorem Place.sound_documentTest
    {place : Place}
    (hplace : place.In g labelled) (hjson : place.field.type.isJson = true)
    (id : Nat) (path : List Segment) (c : Comparison) (operand : Json) :
    (place.documentTest id path c operand).Sound g labelled :=
  ⟨⟨place, hplace, hjson, rfl⟩, c, rfl⟩

theorem DocumentTest.Sound.rowTest
    {t : DocumentTest} {label : String} {key : Option String} {criterion : Criterion} {e : Expr}
    (h : t.Sound g labelled) (hcriterion : t.operator.criterion t.operand = .ok criterion)
    (he : DocumentTest.condition? label key criterion = some e) :
    RowTest label e := by
  obtain ⟨c, hc⟩ := h.operator
  rw [hc] at hcriterion
  exact ⟨key, c, t.operand, criterion, hcriterion, he⟩

theorem DocumentTest.emits_alone
    {t : DocumentTest}
    (h : t.Sound g labelled) :
    Attempt.Ensures (fun l => l.Reserves (labelled.map Source.name)) t.alone
      fun e l => l.Reserves (labelled.map Source.name) ∧ g.EmittedIfAny labelled e := by
  unfold DocumentTest.alone
  refine Attempt.Ensures.bind
    (R := fun criterion l => l.Reserves (labelled.map Source.name) ∧
      t.operator.criterion t.operand = .ok criterion)
    (Attempt.ensures_ofExcept fun l criterion hl hcriterion => ⟨hl, hcriterion⟩)
    fun criterion => ?_
  split
  · exact Attempt.ensures_pure fun l hl => ⟨hl.1, Ground.emittedIfAny_none⟩
  · rintro l ⟨hl, hcriterion⟩
    refine (Attempt.Ensures.bind
      (R := fun rows l => Apart (labelled.map Source.name) rows.label ∧
        l.Reserves (labelled.map Source.name))
      (Attempt.ensures_ofState (P := fun l => l.Reserves (labelled.map Source.name))
        fun l hl => Labels.reserves_ofField t.collection t.field hl)
      fun rows => Attempt.ensures_pure fun l hl => ?_) l hl
    refine ⟨hl.2, ?_⟩
    intro e he
    obtain ⟨condition, hcondition, rfl⟩ := Option.map_eq_some_iff.1 he
    have htests : ∀ e ∈ [condition], RowTest rows.label e :=
      List.forall_mem_singleton.2 (h.rowTest hcriterion hcondition)
    exact .matched h.document _ hl.1 htests rfl

/-- Every criterion comes from one of the tests. -/
theorem DocumentTest.exists_of_mem_criteria :
    ∀ {tests : List DocumentTest} {asked : List (String × Criterion)},
      DocumentTest.criteria tests = .ok asked → ∀ x ∈ asked,
        ∃ t ∈ tests, t.operator.criterion t.operand = .ok x.2
  | [], asked, h, x, hx => by
      cases h
      cases hx
  | t :: tests, asked, h, x, hx => by
      obtain ⟨key, criterion, others, -, hcriterion, hothers, rfl⟩ := criteria_cons_eq_ok_iff.1 h
      split at hx
      · obtain ⟨t', ht', hx⟩ := exists_of_mem_criteria hothers x hx
        exact ⟨t', List.mem_cons_of_mem _ ht', hx⟩
      · rcases List.mem_cons.1 hx with rfl | hx
        · exact ⟨t, List.mem_cons_self, hcriterion⟩
        · obtain ⟨t', ht', hx⟩ := exists_of_mem_criteria hothers x hx
          exact ⟨t', List.mem_cons_of_mem _ ht', hx⟩

theorem DocumentTest.emits_together
    {tests : List DocumentTest}
    (h : ∀ t ∈ tests, t.Sound g labelled) :
    Attempt.Ensures (fun l => l.Reserves (labelled.map Source.name)) (DocumentTest.together tests)
      fun e l => l.Reserves (labelled.map Source.name) ∧ g.EmittedIfAny labelled e := by
  cases tests with
  | nil => exact Attempt.ensures_fail _
  | cons first others =>
      unfold DocumentTest.together
      refine Attempt.Ensures.bind
        (R := fun asked l => l.Reserves (labelled.map Source.name) ∧
          DocumentTest.criteria (first :: others) = .ok asked)
        (Attempt.ensures_ofExcept fun l asked hl hasked => ⟨hl, hasked⟩) fun asked => ?_
      split
      · exact Attempt.ensures_pure fun l hl => ⟨hl.1, Ground.emittedIfAny_none⟩
      · rintro l ⟨hl, hasked⟩
        refine (Attempt.Ensures.bind
          (R := fun rows l => Apart (labelled.map Source.name) rows.label ∧
            l.Reserves (labelled.map Source.name))
          (Attempt.ensures_ofState (P := fun l => l.Reserves (labelled.map Source.name))
            fun l hl =>
              Labels.reserves_ofElements first.collection first.field first.elementPath hl)
          fun rows => Attempt.ensures_pure fun l hl => ?_) l hl
        refine ⟨hl.2, ?_⟩
        intro e he
        obtain ⟨condition, hcondition, rfl⟩ := Option.map_eq_some_iff.1 he
        refine .matched (h first List.mem_cons_self).document _ hl.1 ?_ hcondition
        intro e he
        obtain ⟨⟨key, criterion⟩, hmem, he⟩ := List.mem_filterMap.1 he
        obtain ⟨t, ht, hcriterion⟩ := DocumentTest.exists_of_mem_criteria hasked _ hmem
        exact (h t ht).rowTest hcriterion he

end Tests

/-! ## Accounts -/

section Accounts

variable {g : Ground} {outer : List Source} {plan : JoinPlan}

/-- The conditions of the folds have one of the forms. -/
def FoldsEmitted (g : Ground) (labelled : List Source) (folds : List Fold) : Prop :=
  ∀ fold ∈ folds, g.EmittedIfAny labelled fold.shared

theorem emits_makeFolds :
    ∀ {groups : List (List DocumentTest)},
      (∀ members ∈ groups, ∀ t ∈ members, t.Sound g (plan.labelled outer)) →
      Compiling.Emits g outer plan (makeFolds groups) (FoldsEmitted g (plan.labelled outer))
  | [], _ => by
      rw [makeFolds]
      exact Compiling.emits_pure (by simp [FoldsEmitted])
  | members :: rest, h => by
      obtain ⟨hmembers, hrest⟩ := List.forall_mem_cons.1 h
      rw [makeFolds]
      refine (Compiling.emits_label (DocumentTest.emits_together hmembers)).bind
        fun shared hshared => ?_
      refine (emits_makeFolds hrest).bind fun folds hfolds => Compiling.emits_pure ?_
      exact List.forall_mem_cons.2 ⟨hshared, hfolds⟩

theorem sound_testOf
    {p : Progress} {leaf : Leaf} {tests : List DocumentTest}
    (hp : p.Situated g outer) (hpath : leaf.path ⊆ g.segments)
    (h : p.plan.testOf g.schema leaf = .ok tests) :
    ∀ t ∈ tests, t.Sound g (p.plan.labelled outer) := by
  unfold JoinPlan.testOf at h
  split at h
  · rename_i place s rest hdestination
    obtain ⟨_, _, h⟩ := exists_of_bind_ok h
    cases h
    cases hp.sound_of_destination? hpath hdestination with
    | json hplace _ hjson =>
        intro t ht
        rw [List.mem_singleton.1 ht]
        exact Place.sound_documentTest hplace hjson _ _ _ _
  · cases h
    simp

mutual

theorem sound_closureTests
    {p : Progress} (hp : p.Situated g outer) :
    ∀ {filter : Filter} {tests : List DocumentTest}, filter.segments ⊆ g.segments →
      closureTests g.schema p.plan filter = .ok tests →
        ∀ t ∈ tests, t.Sound g (p.plan.labelled outer)
  | .and children, tests, hsegments, h => by
      rw [closureTests] at h
      exact sound_allClosureTests hp hsegments h
  | .or children, tests, _, h => by
      rw [closureTests] at h
      cases h
      simp
  | .compare id path c operand, tests, hsegments, h => by
      rw [closureTests] at h
      exact sound_testOf hp hsegments h
  | .quantify .., tests, _, h => by
      rw [closureTests] at h
      cases h
      simp

theorem sound_allClosureTests
    {p : Progress} (hp : p.Situated g outer) :
    ∀ {filters : List Filter} {tests : List DocumentTest},
      Filter.segmentsOfAll filters ⊆ g.segments →
      allClosureTests g.schema p.plan filters = .ok tests →
        ∀ t ∈ tests, t.Sound g (p.plan.labelled outer)
  | [], tests, _, h => by
      rw [allClosureTests] at h
      cases h
      simp
  | child :: rest, tests, hsegments, h => by
      obtain ⟨hchild, hrest⟩ := List.append_subset.1 hsegments
      rw [allClosureTests] at h
      obtain ⟨first, hfirst, h⟩ := exists_of_bind_ok h
      obtain ⟨others, hothers, h⟩ := exists_of_bind_ok h
      cases h
      exact List.forall_mem_append.2
        ⟨sound_closureTests hp hchild hfirst, sound_allClosureTests hp hrest hothers⟩

end

theorem emits_closureFolds
    {children : List Filter}
    (hsegments : Filter.segmentsOfAll children ⊆ g.segments) :
    Compiling.Emits g outer plan (closureFolds g.schema children)
      (FoldsEmitted g (plan.labelled outer)) := by
  unfold closureFolds
  refine Attempt.Ensures.bind
    (R := fun seen p => seen = p ∧ p.plan = plan ∧ p.Situated g outer)
    (Attempt.ensures_state fun p hp => ⟨rfl, hp⟩) fun seen => ?_
  rintro p ⟨rfl, rfl, hp⟩
  refine (Compiling.emits_ofExcept fun _ h => h).bind (fun tests htests => ?_) seen ⟨rfl, hp⟩
  have hsound := sound_allClosureTests hp hsegments htests
  refine emits_makeFolds fun members hmembers t ht => hsound t ?_
  have hfamily := (List.mem_filter.1 hmembers).1
  obtain ⟨key, -, rfl⟩ := List.mem_map.1 hfamily
  exact (List.mem_filter.1 (DocumentTest.mem_family.1 ht).1).1

theorem emits_foldsWithin
    {children : List Filter} {within : Option (List Fold)}
    (hsegments : Filter.segmentsOfAll children ⊆ g.segments)
    (hwithin : ∀ folds ∈ within, FoldsEmitted g (plan.labelled outer) folds) :
    Compiling.Emits g outer plan (foldsWithin g.schema children within)
      (FoldsEmitted g (plan.labelled outer)) := by
  cases within with
  | none => exact emits_closureFolds hsegments
  | some folds => exact Compiling.emits_pure (hwithin folds rfl)

theorem emits_condition
    {place : Place} {relation : Option Relation}
    (hplace : place.In g (plan.labelled outer))
    (hrelation : g.schema.relation? place.collection place.segment.name = relation)
    (hone : ∀ r ∈ relation, r.cardinality.leadsToMany = false) (c : Comparison)
    (operand : Json) :
    Compiling.Emits g outer plan (Attempt.ofExcept (place.condition relation c operand))
      (g.EmittedIfAny (plan.labelled outer)) := by
  refine Compiling.emits_ofExcept fun condition h => ?_
  obtain ⟨_, hcheck, h⟩ := exists_of_bind_ok h
  obtain ⟨criterion, hcriterion, h⟩ := exists_of_bind_ok h
  cases h
  intro e he
  exact .asked (.field hplace hcheck hrelation hone) hcriterion he

theorem emits_countCondition
    {link : Link}
    (hlink : link.probe.Sound g (plan.labelled outer))
    (hback : g.PointsBack (plan.labelled outer) link) (place : Place) (relation : Relation)
    (c : Comparison) (operand : Json) :
    Compiling.Emits g outer plan (link.countCondition g.schema place relation c operand)
      (g.EmittedIfAny (plan.labelled outer)) := by
  unfold Link.countCondition
  refine (Compiling.emits_ofExcept (Q := fun _ => True) fun _ _ => trivial).bind fun _ _ => ?_
  refine (Compiling.emits_ofExcept (Q := fun _ => True) fun _ _ => trivial).bind fun _ _ => ?_
  refine (Compiling.emits_label (Q := Apart ((plan.labelled outer).map Source.name)) ?_).bind
    fun label hlabel => ?_
  · refine Attempt.ensures_ofState fun l hl => ?_
    obtain ⟨hapart, hreserves⟩ := Labels.reserves_fresh link.related hl
    exact ⟨hreserves.subset (List.subset_append_left _ _), hapart⟩
  · refine (Compiling.emits_ofExcept fun _ h => h).bind fun criterion hcriterion => ?_
    refine Compiling.emits_pure fun e he => ?_
    exact .asked (.count hlink hlabel hback) hcriterion he

theorem emits_arrivalCondition
    {destination : Destination}
    (h : destination.Sound g (plan.labelled outer)) (id : Nat) (c : Comparison)
    (operand : Json) :
    Compiling.Emits g outer plan (arrivalCondition g.schema id c operand destination)
      (g.EmittedIfAny (plan.labelled outer)) := by
  cases h with
  | column hplace hrelation hone => exact emits_condition hplace hrelation hone c operand
  | @json place rest hplace hrelation hjson =>
      cases rest with
      | nil => exact emits_condition hplace hrelation (by rintro r ⟨⟩) c operand
      | cons s rest =>
          refine (Compiling.emits_ofExcept (Q := fun _ => True) fun _ _ => trivial).bind
            fun _ _ => Compiling.emits_label ?_
          exact DocumentTest.emits_alone (Place.sound_documentTest hplace hjson id _ c operand)
  | toMany hplace hrelation hscope _ =>
      refine (Compiling.emits_ofExcept fun _ h => h).bind fun link hlink => ?_
      exact emits_countCondition (Link.sound_of_ok hplace hrelation hscope hlink)
        (Link.pointsBack_of_ok hplace hrelation hscope hlink) _ _ c operand

/-- A condition on the rows of the query of a probe. -/
theorem emitted_predicate
    {probe : Probe} {inquiry : Inquiry} {condition : Option Expr} {labelled : List Source}
    (hprobe : probe.Sound g labelled) (negated : Bool)
    (h : ∃ label joins, inquiry = probe.inquiry label joins ∧
      Apart (labelled.map Source.name) label ∧
      g.Joined (labelled ++ [probe.source label]) joins ∧
      g.EmittedIfAny (labelled ++ [probe.source label] ++ joins.map Join.source) condition) :
    g.Emitted labelled (inquiry.predicate probe.key negated condition) := by
  obtain ⟨label, joins, rfl, hlabel, hjoins, hcondition⟩ := h
  exact .among hprobe negated hlabel hjoins hcondition

theorem emits_comparisonAccount
    (id : Nat) (c : Comparison) (operand : Json) :
    ∀ (limit : Nat) {path : List Segment} {outer : List Source} {plan : JoinPlan},
      path ⊆ g.segments → (∃ destination, plan.destination? g.schema path = some destination) →
      Compiling.Emits g outer plan (comparisonAccount g.schema id c operand limit path)
        fun a => g.EmittedIfAny (plan.labelled outer) a.condition := by
  intro limit
  induction limit with
  | zero =>
      intro path outer plan _ _
      exact Compiling.emits_fail _
  | succ limit ih =>
      intro path outer plan hpath hsettled
      obtain ⟨destination, hdestination⟩ := hsettled
      rw [comparisonAccount]
      refine (Compiling.emits_locate hpath hdestination).bind fun found hfound => ?_
      obtain ⟨-, hsound⟩ := hfound
      split
      · rename_i place relation scope s rest
        cases hsound with
        | toMany hplace hrelation hscope hrest =>
            refine (Compiling.emits_ofExcept fun _ h => h).bind fun link hlink => ?_
            have hprobe := Link.sound_of_ok hplace hrelation hscope hlink
            refine (Compiling.emits_enter
              (R := fun labelled a => g.EmittedIfAny labelled a.condition) fun label => ?_).bind
                fun x hx => Compiling.emits_pure ?_
            · -- the rest of the path is followed inside the query, which settles it
              refine ((situated_locate hrest).and (ensures_locate g.schema (s :: rest)
                (JoinPlan.start link.probe.related label))).bind fun inner => ?_
              rintro p ⟨⟨hp, -⟩, -, hinner⟩
              refine (ih hrest ⟨inner, hinner⟩).mono (fun a q hq => ?_) p ⟨rfl, hp⟩
              rw [hq.1.1]
              exact ⟨hq.1.2, hq.2⟩
            · rw [Account.condition]
              rintro e ⟨⟩
              exact emitted_predicate hprobe false hx
      · refine (emits_arrivalCondition hsound id c operand).bind fun condition hcondition => ?_
        refine Compiling.emits_pure ?_
        rw [Account.condition]
        exact hcondition

theorem emits_quantifierProbe
    {field : Segment} {destination : Destination}
    (hfield : field ∈ g.segments)
    (hdestination : plan.destination? g.schema [field] = some destination) (q : Quantifier) :
    Compiling.Emits g outer plan (quantifierProbe g.schema field q)
      (Probe.Sound g (plan.labelled outer)) := by
  unfold quantifierProbe
  refine (Compiling.emits_locate (by simpa using hfield) hdestination).bind
    fun found hfound => ?_
  obtain ⟨-, hsound⟩ := hfound
  split
  · cases hsound with
    | toMany hplace hrelation hscope _ =>
        refine (Compiling.emits_ofExcept fun _ h => h).bind fun link hlink => ?_
        refine (Compiling.emits_ofExcept (Q := fun _ => True) fun _ _ => trivial).bind
          fun _ _ => Compiling.emits_pure ?_
        exact Link.sound_of_ok hplace hrelation hscope hlink
  · refine (Compiling.emits_ofExcept (Q := fun _ => True) fun _ _ => trivial).bind
      fun _ _ => ?_
    split
    · exact Compiling.emits_fail _
    · refine (Compiling.emits_ofExcept (Q := fun _ => True) fun _ _ => trivial).bind
        fun related _ => ?_
      refine (Compiling.emits_ofExcept fun _ h => h).bind fun primary hprimary => ?_
      refine Compiling.emits_pure ⟨⟨_, _, rfl, hsound.place_in.refers⟩, ?_, ?_⟩
      · exact Schema.knows_primary hprimary
      · rintro d ⟨⟩

mutual

/-- The condition of a filter whose joins are planned has one of the forms. -/
theorem emits_account
    {s : Setting} (hschema : s.schema = g.schema) :
    ∀ {filter : Filter} {within : Option (List Fold)} {outer : List Source} {plan : JoinPlan},
      filter.segments ⊆ g.segments → filter.Settled g.schema plan →
      (∀ folds ∈ within, FoldsEmitted g (plan.labelled outer) folds) →
      Compiling.Emits g outer plan (account s within filter)
        fun a => g.EmittedIfAny (plan.labelled outer) a.condition
  | .and children, within, outer, plan, hsegments, hsettled, hwithin => by
      rw [Filter.Settled] at hsettled
      rw [account, hschema]
      refine (emits_foldsWithin hsegments hwithin).bind fun folds hfolds => ?_
      refine (emits_accounts hschema hsegments hsettled hfolds).bind fun as has => ?_
      refine Compiling.emits_pure ?_
      rw [Account.condition]
      exact Ground.emittedIfAny_group? .and (Account.forall_conditions has)
  | .or children, within, outer, plan, hsegments, hsettled, hwithin => by
      rw [Filter.Settled] at hsettled
      rw [account]
      split
      · rename_i hall
        have hne : children ≠ [] := by
          rintro rfl
          cases hall
        refine Compiling.emits_pure ?_
        rw [Account.condition, alternatives?_unbuilt hne]
        exact Ground.emittedIfAny_none
      · rename_i hall
        have hsettled' := hsettled.resolve_left hall
        refine (emits_alternativeAccounts hschema hsegments hsettled').bind fun as has => ?_
        refine Compiling.emits_pure ?_
        rw [Account.condition]
        intro e he
        obtain ⟨es, hes, he⟩ := Option.bind_eq_some_iff.1 he
        exact Ground.emittedIfAny_group? .or (Account.forall_alternatives has hes) e he
  | .compare id path c operand, within, outer, plan, hsegments, hsettled, hwithin => by
      rw [Filter.Settled] at hsettled
      rw [account, hschema]
      split
      · rename_i fold hfold
        refine Compiling.emits_pure ?_
        obtain ⟨folds, hfolds, hfold⟩ := Option.bind_eq_some_iff.1 hfold
        rw [Account.condition, Fold.standing]
        split
        · exact hwithin folds hfolds fold (List.mem_of_find?_eq_some hfold)
        · exact Ground.emittedIfAny_none
      · exact emits_comparisonAccount id c operand path.length hsegments hsettled
  | .quantify id field q inner, within, outer, plan, hsegments, hsettled, hwithin => by
      rw [Filter.Settled] at hsettled
      obtain ⟨destination, hdestination⟩ := hsettled
      obtain ⟨hfield, hinner⟩ := List.cons_subset.1 hsegments
      rw [account, hschema]
      refine (emits_quantifierProbe hfield hdestination q).bind fun probe hprobe => ?_
      refine (Compiling.emits_enter
        (R := fun labelled a => g.EmittedIfAny labelled a.condition) fun label => ?_).bind
          fun x hx => Compiling.emits_pure ?_
      · refine ((situated_planJoins hschema hinner).and (ensures_planJoins s inner
          (JoinPlan.start probe.related label))).bind fun _ => ?_
        rintro p ⟨hp, -, hsettled⟩
        rw [hschema] at hsettled
        refine (emits_account hschema hinner hsettled ?_).mono (fun a q hq => ?_) p ⟨rfl, hp⟩
        · rintro folds ⟨⟩
        · rw [hq.1.1]
          exact ⟨hq.1.2, hq.2⟩
      · rw [Account.condition]
        rintro e ⟨⟩
        exact emitted_predicate hprobe (q == .none) hx

theorem emits_accounts
    {s : Setting} (hschema : s.schema = g.schema) :
    ∀ {filters : List Filter} {folds : List Fold} {outer : List Source} {plan : JoinPlan},
      Filter.segmentsOfAll filters ⊆ g.segments → Filter.AllSettled g.schema plan filters →
      FoldsEmitted g (plan.labelled outer) folds →
      Compiling.Emits g outer plan (accounts s folds filters)
        fun as => ∀ a ∈ as, g.EmittedIfAny (plan.labelled outer) a.condition
  | [], folds, outer, plan, _, _, _ => by
      rw [accounts]
      exact Compiling.emits_pure (by simp)
  | child :: rest, folds, outer, plan, hsegments, hsettled, hfolds => by
      obtain ⟨hchild, hrest⟩ := List.append_subset.1 hsegments
      rw [Filter.AllSettled] at hsettled
      rw [accounts]
      refine (emits_account hschema hchild hsettled.1 ?_).bind fun a ha => ?_
      · rintro _ ⟨⟩
        exact hfolds
      · refine (emits_accounts hschema hrest hsettled.2 hfolds).bind fun as has => ?_
        exact Compiling.emits_pure (List.forall_mem_cons.2 ⟨ha, has⟩)

theorem emits_alternativeAccounts
    {s : Setting} (hschema : s.schema = g.schema) :
    ∀ {filters : List Filter} {outer : List Source} {plan : JoinPlan},
      Filter.segmentsOfAll filters ⊆ g.segments → Filter.AllSettled g.schema plan filters →
      Compiling.Emits g outer plan (alternativeAccounts s filters)
        fun as => ∀ a ∈ as, g.EmittedIfAny (plan.labelled outer) a.condition
  | [], outer, plan, _, _ => by
      rw [alternativeAccounts]
      exact Compiling.emits_pure (by simp)
  | child :: rest, outer, plan, hsegments, hsettled => by
      obtain ⟨hchild, hrest⟩ := List.append_subset.1 hsegments
      rw [Filter.AllSettled] at hsettled
      rw [alternativeAccounts]
      refine (emits_account hschema hchild hsettled.1 ?_).bind fun a ha => ?_
      · rintro _ ⟨⟩
      · split
        · refine Compiling.emits_pure (List.forall_mem_cons.2 ⟨ha, ?_⟩)
          intro b hb
          obtain ⟨f, -, rfl⟩ := List.mem_map.1 hb
          rw [Account.condition]
          exact Ground.emittedIfAny_none
        · refine (emits_alternativeAccounts hschema hrest hsettled.2).bind fun as has => ?_
          exact Compiling.emits_pure (List.forall_mem_cons.2 ⟨ha, has⟩)

end

end Accounts

/-- What the statement for a filter is held against. -/
def Ground.ofFilter {filter : Json} {tree : Filter} (s : Setting) (collection : String)
    (htree : Filter.ofJson s.options.maxDepth filter = .ok tree) : Ground where
  schema := s.schema
  collection := collection
  segments := tree.segments
  dotless := Filter.dotless_ofJson htree

/-- The joins of a compiled filter connect to what is in sight before them, and its
condition has one of the forms. -/
theorem emitted_of_compile
    {s : Setting} {collection : String} {filter : Json} {c : Compiled}
    (h : s.compile collection filter = .ok c) :
    ∃ tree, ∃ htree : Filter.ofJson s.options.maxDepth filter = .ok tree,
      c.collection = collection ∧ (Ground.ofFilter s collection htree).Joined [] c.joins ∧
      (Ground.ofFilter s collection htree).EmittedIfAny (c.joins.map Join.source) c.condition := by
  obtain ⟨tree, a, p, htree, hrun, -, rfl⟩ := account_of_compile h
  refine ⟨tree, htree, rfl, ?_⟩
  generalize hground : Ground.ofFilter s collection htree = g
  have hschema : s.schema = g.schema := by rw [← hground]; rfl
  have hsegments : tree.segments ⊆ g.segments := by rw [← hground]; exact List.Subset.refl _
  have hstart : (Progress.start collection).Situated g [] := by
    refine ⟨JoinPlan.sound_start ?_, Labels.reserves_empty⟩
    rw [← hground]
    exact List.mem_cons_self
  have hensures : Attempt.Ensures
      (fun p => p.Situated g [] ∧ p.plan = JoinPlan.start collection collection)
      (s.account tree)
      fun a p => p.Situated g [] ∧ g.EmittedIfAny (p.plan.labelled []) a.condition := by
    refine ((situated_planJoins hschema hsegments).and (ensures_planJoins s tree _)).bind
      fun _ => ?_
    rintro p ⟨hp, -, hsettled⟩
    rw [hschema] at hsettled
    refine (emits_account hschema hsegments hsettled ?_).mono (fun a q hq => ?_) p ⟨rfl, hp⟩
    · rintro folds ⟨⟩
    · rw [hq.1.1]
      exact ⟨hq.1.2, hq.2⟩
  obtain ⟨hp, hcondition⟩ := hensures _ ⟨hstart, rfl⟩ a p hrun
  exact ⟨hp.plan.joined, hcondition⟩

end RowFilter
