import Mathlib.Tactic.SplitIfs
import RowFilter.Proofs.Contexts
import RowFilter.Proofs.Freshness
import RowFilter.Proofs.Locating
import RowFilter.Proofs.Segments

/-!
# Where places stand

Following a path leads to a field in a row source.  The row source is in sight, its
rows are of the collection that declares the field, and the joins on the way connect
row sources in sight by fields that exist.

A join is recognised by the text of the path to it.  That it leads to the right
collection needs that the names of a path can be told from the text, so names must
not hold dots.

* `Schema.Knows`: the fields that a reference to a collection can be about.
* `Destination.Sound`: what holds of a place that a path leads to.
* `Progress.Situated`: what holds of the joins and labels of a compilation.
* `situated_locate`, `situated_planJoins`: it holds all along.
-/

namespace RowFilter

open Sql (Expr Join Source)
open Labels (Apart)

/-- A relation leads to a collection: it declares it, or one of the segments chooses
it. -/
def Relation.LeadsTo (segments : List Segment) (r : Relation) (collection : String) : Prop :=
  r.relatedCollection = some collection ∨
    ∃ s ∈ segments, s.name = r.field ∧ s.choose r = .ok (some collection)

theorem Segment.choose_eq_ok_iff
    {s : Segment} {r : Relation} {scope : Option String} :
    s.choose r = .ok scope ↔ (s.choose r).toOption = some scope := by
  cases s.choose r with
  | error e => simp [Except.toOption]
  | ok chosen => simp [Except.toOption]

instance (segments : List Segment) (r : Relation) (collection : String) :
    Decidable (r.LeadsTo segments collection) :=
  decidable_of_iff (r.relatedCollection = some collection ∨
    ∃ s ∈ segments, s.name = r.field ∧ (s.choose r).toOption = some (some collection))
    (by simp only [Relation.LeadsTo, Segment.choose_eq_ok_iff])

/-- A column that the rows of a collection have: a declared field, the primary key, or
a field by which a relation finds the rows. -/
def Schema.Knows (schema : Schema) (segments : List Segment) (collection field : String) : Prop :=
  (schema.field? collection field).isSome = true ∨
    (schema.collection? collection).map Collection.primary = some field ∨
    ∃ r ∈ schema.relations, r.LeadsTo segments collection ∧
      (r.relatedField = some field ∨ r.collectionField = some field)

/-- The collection behind relations that are followed by the names of their fields. -/
def Schema.reach (schema : Schema) : String → List String → Option String
  | collection, [] => some collection
  | collection, name :: rest =>
      ((schema.relation? collection name).bind Relation.relatedCollection).bind
        (schema.reach · rest)

/-- What the references of a statement are held against: a schema, the collection of
the statement, and the segments of its filter. -/
structure Ground where
  schema : Schema
  collection : String
  segments : List Segment
  dotless : ∀ s ∈ segments, Dotless s.name

namespace Ground

variable (g : Ground)

/-- The row sources in sight: the collection of the statement under its own name, and
others under their labels. -/
def sight (labelled : List Source) : List Source :=
  ⟨g.collection, some g.collection⟩ :: labelled

/-- A name refers to a row source in sight, whose rows have the field. -/
def Refers (labelled : List Source) (qualifier field : String) : Prop :=
  ∃ collection, ⟨qualifier, some collection⟩ ∈ g.sight labelled ∧
    g.schema.Knows g.segments collection field

/-- A name refers to a row source in sight, whose rows have the field, and a relation to one
row of a collection is declared on it. -/
def LeadsToOne (labelled : List Source) (qualifier field related : String) : Prop :=
  ∃ collection r, ⟨qualifier, some collection⟩ ∈ g.sight labelled ∧
    g.schema.Knows g.segments collection field ∧
    g.schema.relation? collection field = some r ∧ r.cardinality.leadsToMany = false ∧
    r.relatedCollection = some related

/-- The join connects the rows of a collection to a row source in sight, under a label
that is not in use. -/
inductive Connects (labelled : List Source) : Join → Prop
  | joinOf {related label primary parent field : String}
      (hprimary : g.schema.primaryKey related = .ok primary)
      (hparent : g.LeadsToOne labelled parent field related)
      (hlabel : Apart (labelled.map Source.name) label) :
      Connects labelled (JoinPlan.joinOf related label primary parent field)

/-- Every join connects to what is in sight before it. -/
def Joined : List Source → List Join → Prop
  | _, [] => True
  | labelled, join :: rest => g.Connects labelled join ∧ Joined (labelled ++ [join.source]) rest

variable {g}

theorem sight_subset
    {labelled labelled' : List Source}
    (h : labelled ⊆ labelled') :
    g.sight labelled ⊆ g.sight labelled' :=
  List.cons_subset_cons _ h

theorem LeadsToOne.refers
    {labelled : List Source} {qualifier field related : String}
    (h : g.LeadsToOne labelled qualifier field related) :
    g.Refers labelled qualifier field := by
  obtain ⟨collection, r, hsource, hknows, -⟩ := h
  exact ⟨collection, hsource, hknows⟩

theorem LeadsToOne.mono
    {labelled labelled' : List Source} {qualifier field related : String}
    (h : g.LeadsToOne labelled qualifier field related) (hsubset : labelled ⊆ labelled') :
    g.LeadsToOne labelled' qualifier field related := by
  obtain ⟨collection, r, hsource, hrelation⟩ := h
  exact ⟨collection, r, sight_subset hsubset hsource, hrelation⟩

theorem joined_concat
    {labelled : List Source} {joins : List Join} {join : Join}
    (hjoins : g.Joined labelled joins)
    (hjoin : g.Connects (labelled ++ joins.map Join.source) join) :
    g.Joined labelled (joins ++ [join]) := by
  induction joins generalizing labelled with
  | nil =>
      rw [List.map_nil, List.append_nil] at hjoin
      exact ⟨hjoin, trivial⟩
  | cons first rest ih =>
      refine ⟨hjoins.1, ih hjoins.2 ?_⟩
      rwa [List.append_assoc]

end Ground

theorem Cardinality.leadsToMany_eq_false_iff
    {cardinality : Cardinality} :
    cardinality.leadsToMany = false ↔ cardinality = .manyToOne := by
  cases cardinality <;> simp [Cardinality.leadsToMany]

theorem Relation.related_eq_ok_iff
    {r : Relation} {collection : String} :
    r.related = .ok collection ↔ r.relatedCollection = some collection := by
  unfold Relation.related
  cases r.relatedCollection with
  | none => simp
  | some c => simp

namespace Schema

variable {schema : Schema} {segments : List Segment}

theorem eq_of_relation?
    {collection field : String} {r : Relation}
    (h : schema.relation? collection field = some r) :
    r ∈ schema.relations ∧ r.collection = collection ∧ r.field = field := by
  refine ⟨List.mem_of_find?_eq_some h, ?_⟩
  simpa using List.find?_some h

theorem reach_concat
    {collection reached name related : String} {names : List String} {relation : Relation}
    (hreach : schema.reach collection names = some reached)
    (hrelation : schema.relation? reached name = some relation)
    (hrelated : relation.related = .ok related) :
    schema.reach collection (names ++ [name]) = some related := by
  induction names generalizing collection with
  | nil =>
      cases hreach
      simp [reach, hrelation, Relation.related_eq_ok_iff.1 hrelated]
  | cons first rest ih =>
      rw [reach] at hreach
      obtain ⟨next, hnext, hrest⟩ := Option.bind_eq_some_iff.1 hreach
      rw [List.cons_append, reach, hnext]
      exact ih hrest

theorem primaryKey_eq_ok_iff
    {collection primary : String} :
    schema.primaryKey collection = .ok primary ↔
      (schema.collection? collection).map Collection.primary = some primary := by
  unfold primaryKey
  cases schema.collection? collection with
  | none => simp
  | some c => simp

theorem knows_field
    {collection name : String} {field : Field}
    (h : schema.field? collection name = some field) :
    schema.Knows segments collection name :=
  .inl (by rw [h]; rfl)

theorem knows_primary
    {collection primary : String}
    (h : schema.primaryKey collection = .ok primary) :
    schema.Knows segments collection primary :=
  .inr (.inl (primaryKey_eq_ok_iff.1 h))

end Schema

/-! ## Places -/

/-- The place is a declared field of a collection whose rows are in sight, and is named
by one of the segments. -/
structure Place.In (g : Ground) (labelled : List Source) (place : Place) : Prop where
  source : ⟨place.qualifier, some place.collection⟩ ∈ g.sight labelled
  field : g.schema.field? place.collection place.segment.name = some place.field
  segment : place.segment ∈ g.segments

/-- The place at which a path ends is in sight, and the destination says which relation
is declared there. -/
inductive Destination.Sound (g : Ground) (labelled : List Source) : Destination → Prop
  | column {place : Place} {relation : Option Relation}
      (hplace : place.In g labelled)
      (hrelation : g.schema.relation? place.collection place.segment.name = relation)
      (hone : ∀ r ∈ relation, r.cardinality.leadsToMany = false) :
      Sound g labelled (.column place relation)
  | toMany {place : Place} {relation : Relation} {scope : Option String} {rest : List Segment}
      (hplace : place.In g labelled)
      (hrelation : g.schema.relation? place.collection place.segment.name = some relation)
      (hscope : place.segment.choose relation = .ok scope)
      (hrest : rest ⊆ g.segments) :
      Sound g labelled (.toMany place relation scope rest)
  | json {place : Place} {rest : List Segment}
      (hplace : place.In g labelled)
      (hrelation : g.schema.relation? place.collection place.segment.name = none)
      (hjson : place.field.type.isJson = true) :
      Sound g labelled (.json place rest)

theorem Destination.Sound.place_in
    {g : Ground} {labelled : List Source} {destination : Destination}
    (h : destination.Sound g labelled) :
    destination.place.In g labelled := by
  cases h with
  | column hplace _ _ => exact hplace
  | toMany hplace _ _ _ => exact hplace
  | json hplace _ _ => exact hplace

/-- What can become of a path at a field with a relation. -/
theorem Place.cases_of_relate
    {place : Place} {relation : Relation} {rest : List Segment} {step : Step}
    (h : place.relate relation rest = .ok step) :
    (∃ scope, place.segment.choose relation = .ok scope ∧
        step = .arrive (.toMany place relation scope rest)) ∨
      ((place.segment.scope = none ∧ relation.cardinality.leadsToMany = false) ∧
        (step = .arrive (.column place (some relation)) ∧ rest = [] ∨
          step = .cross relation ∧ rest ≠ [])) := by
  unfold Place.relate at h
  split at h
  · cases h
  · obtain ⟨scope, hscope, h⟩ := exists_of_bind_ok h
    split at h
    · cases h
      exact .inl ⟨scope, hscope, rfl⟩
    · rename_i hmany
      have hone := Bool.eq_false_iff.2 hmany
      have hnone := (Segment.scope_of_choose hscope).2 hone
      split at h
      · rename_i hrest
        cases h
        exact .inr ⟨⟨hnone, hone⟩, .inl ⟨rfl, List.isEmpty_iff.1 hrest⟩⟩
      · rename_i hrest
        cases h
        exact .inr ⟨⟨hnone, hone⟩, .inr ⟨rfl, fun hnil => hrest (List.isEmpty_iff.2 hnil)⟩⟩

section Steps

variable {g : Ground} {labelled : List Source} {qualifier collection : String}
  {segment : Segment} {rest : List Segment}

/-- A path that ends does so at a place in sight. -/
theorem Destination.sound_of_step
    {destination : Destination}
    (h : g.schema.step qualifier collection segment rest = .ok (.arrive destination))
    (hsource : ⟨qualifier, some collection⟩ ∈ g.sight labelled)
    (hsegment : segment ∈ g.segments) (hrest : rest ⊆ g.segments) :
    destination.Sound g labelled := by
  unfold Schema.step at h
  split at h
  · cases h
  · rename_i field hfield
    have hplace : Place.In g labelled ⟨qualifier, collection, segment, field⟩ :=
      ⟨hsource, hfield, hsegment⟩
    split at h
    · rename_i hrelation
      simp only [Place.arrive] at h
      split_ifs at h with hjson
      all_goals cases h
      · exact .json hplace hrelation hjson
      · exact .column hplace hrelation (by rintro r ⟨⟩)
    · rename_i relation hrelation
      rcases Place.cases_of_relate h with ⟨scope, hscope, hstep⟩ |
        ⟨⟨-, hone⟩, ⟨hstep, -⟩ | ⟨hstep, -⟩⟩
      all_goals cases hstep
      · exact .toMany hplace hrelation hscope hrest
      · exact .column hplace hrelation (by rintro r ⟨⟩; exact hone)

/-- A path that goes on does so behind a relation to one row that is declared on the field,
and the segment chooses no collection for it. -/
theorem Schema.cross_of_step
    {relation : Relation}
    (h : g.schema.step qualifier collection segment rest = .ok (.cross relation)) :
    g.schema.relation? collection segment.name = some relation ∧ segment.scope = none ∧
      g.schema.Knows g.segments collection segment.name ∧
      relation.cardinality.leadsToMany = false := by
  unfold Schema.step at h
  split at h
  · cases h
  · rename_i field hfield
    split at h
    · simp only [Place.arrive] at h
      split_ifs at h
      all_goals cases h
    · rename_i found hrelation
      rcases Place.cases_of_relate h with ⟨scope, hscope, hstep⟩ |
        ⟨⟨hscope, hone⟩, ⟨hstep, -⟩ | ⟨hstep, -⟩⟩
      all_goals cases hstep
      exact ⟨hrelation, hscope, Schema.knows_field hfield, hone⟩

end Steps

/-! ## Join plans -/

/-- The row sources under labels that the joins of a plan add to. -/
def JoinPlan.labelled (plan : JoinPlan) (outer : List Source) : List Source :=
  outer ++ plan.joins.map Join.source

/-- The plan starts from a row source in sight, its joins connect to what is in sight
before them, and the row source behind a path is of the collection that the path leads
to. -/
structure JoinPlan.Sound (g : Ground) (outer : List Source) (plan : JoinPlan) : Prop where
  own : ⟨plan.qualifier, some plan.collection⟩ ∈ g.sight outer
  joined : g.Joined outer plan.joins
  sources : ∀ text label, plan.sources.lookup text = some label →
    ∃ names related, names ≠ [] ∧ (∀ name ∈ names, Dotless name) ∧
      text = ".".intercalate names ∧ g.schema.reach plan.collection names = some related ∧
      ⟨label, some related⟩ ∈ plan.labelled outer

/-- The plan is sound, and the names in sight are reserved. -/
structure Planning.Situated (g : Ground) (outer : List Source) (t : Planning) : Prop where
  plan : t.plan.Sound g outer
  labels : t.labels.Reserves ((t.plan.labelled outer).map Source.name)

/-- The plan of the current query is sound, and the names in sight are reserved. -/
def Progress.Situated (g : Ground) (outer : List Source) (p : Progress) : Prop :=
  p.planning.Situated g outer

theorem JoinPlan.sound_start
    {g : Ground} {outer : List Source} {collection qualifier : String}
    (h : ⟨qualifier, some collection⟩ ∈ g.sight outer) :
    (JoinPlan.start collection qualifier).Sound g outer where
  own := h
  joined := trivial
  sources := by
    intro text label hlookup
    cases hlookup

theorem JoinPlan.labelled_start
    (collection qualifier : String) (outer : List Source) :
    (JoinPlan.start collection qualifier).labelled outer = outer :=
  List.append_nil outer

theorem JoinPlan.labelled_add
    (plan : JoinPlan) (path : List Segment) (label : String) (join : Join) (outer : List Source) :
    (plan.add path label join).labelled outer = plan.labelled outer ++ [join.source] := by
  simp [JoinPlan.labelled, JoinPlan.add]

theorem JoinPlan.pathText_of_scopeless
    {path : List Segment}
    (h : ∀ s ∈ path, s.scope = none) :
    pathText path = ".".intercalate (path.map Segment.name) := by
  have hstep : path.map Segment.stepName = path.map Segment.name :=
    List.map_congr_left fun s hs => by rw [Segment.stepName, h s hs]
  rw [pathText, hstep]

/-- A path that was crossed up to a collection: its segments choose no collections, and
its names lead there. -/
structure Crossed (g : Ground) (start : String) (path : List Segment) (collection : String) :
    Prop where
  scopeless : ∀ s ∈ path, s.scope = none
  segments : path ⊆ g.segments
  reach : g.schema.reach start (path.map Segment.name) = some collection

namespace Crossed

variable {g : Ground} {start collection : String} {path : List Segment}

theorem nil
    (g : Ground) (start : String) :
    Crossed g start [] start :=
  ⟨by simp, by simp, rfl⟩

theorem concat
    {segment : Segment} {relation : Relation} {related : String}
    (h : Crossed g start path collection) (hscope : segment.scope = none)
    (hsegment : segment ∈ g.segments)
    (hrelation : g.schema.relation? collection segment.name = some relation)
    (hrelated : relation.related = .ok related) :
    Crossed g start (path ++ [segment]) related where
  scopeless := by
    intro s hs
    rcases List.mem_append.1 hs with hs | hs
    · exact h.scopeless s hs
    · rwa [List.mem_singleton.1 hs]
  segments := List.append_subset.2 ⟨h.segments, by simpa using hsegment⟩
  reach := by
    rw [List.map_append]
    exact Schema.reach_concat h.reach hrelation hrelated

theorem dotless
    (h : Crossed g start path collection) :
    ∀ name ∈ path.map Segment.name, Dotless name := by
  intro name hname
  obtain ⟨s, hs, rfl⟩ := List.mem_map.1 hname
  exact g.dotless s (h.segments hs)

/-- The row source that was joined for a path is of the collection that the path leads
to: the path is told from its text. -/
theorem source_mem
    {outer : List Source} {plan : JoinPlan} {label : String}
    (h : Crossed g plan.collection path collection) (hplan : plan.Sound g outer)
    (hne : path ≠ []) (hlookup : plan.sources.lookup (JoinPlan.pathText path) = some label) :
    ⟨label, some collection⟩ ∈ plan.labelled outer := by
  obtain ⟨names, related, hnames, hdotless, htext, hreach, hsource⟩ :=
    hplan.sources _ label hlookup
  rw [JoinPlan.pathText_of_scopeless h.scopeless] at htext
  have hpath : path.map Segment.name = names :=
    dotless_intercalate_inj (by simpa using hne) hnames h.dotless hdotless htext
  have hsame : some related = some collection := by
    rw [← hreach, ← hpath, h.reach]
  cases hsame
  exact hsource

end Crossed

section Planning

variable {g : Ground} {outer : List Source} {start : String}

/-- A new join for a path keeps the plan sound, and its label is reserved. -/
theorem Planning.situated_add
    {t : Planning} {path : List Segment} {parent field related primary : String}
    (h : t.Situated g outer) (hcrossed : Crossed g t.plan.collection path related)
    (hne : path ≠ [])
    (hprimary : g.schema.primaryKey related = .ok primary)
    (hparent : g.LeadsToOne (t.plan.labelled outer) parent field related) :
    Planning.Situated g outer
      ⟨(t.labels.fresh related).2, t.plan.add path (t.labels.fresh related).1
        (JoinPlan.joinOf related (t.labels.fresh related).1 primary parent field)⟩ := by
  obtain ⟨hapart, hreserves⟩ := Labels.reserves_fresh related h.labels
  generalize (t.labels.fresh related).1 = label at hapart hreserves ⊢
  have hlabelled := JoinPlan.labelled_add t.plan path label
    (JoinPlan.joinOf related label primary parent field) outer
  refine ⟨⟨h.plan.own, ?_, ?_⟩, ?_⟩
  · exact Ground.joined_concat h.plan.joined (.joinOf hprimary hparent hapart)
  · intro text found hlookup
    simp only [hlabelled]
    simp only [JoinPlan.add, List.lookup_append, Option.or_eq_some_iff] at hlookup ⊢
    rcases hlookup with hold | ⟨-, hnew⟩
    · obtain ⟨names, reached, hnames, hdotless, htext, hreach, hsource⟩ :=
        h.plan.sources text found hold
      exact ⟨names, reached, hnames, hdotless, htext, hreach, List.mem_append_left _ hsource⟩
    · rw [List.lookup_cons] at hnew
      split at hnew
      · rename_i heq
        cases hnew
        refine ⟨path.map Segment.name, related, by simpa using hne, hcrossed.dotless, ?_,
          hcrossed.reach, by simp [JoinPlan.joinOf, Join.source]⟩
        rw [eq_of_beq heq, JoinPlan.pathText_of_scopeless hcrossed.scopeless]
      · cases hnew
  · rw [hlabelled, List.map_append]
    exact hreserves

/-- After a relation is connected, its row source is in sight. -/
theorem situated_connect
    {before : List Segment} {segment : Segment} {qualifier collection : String}
    {relation : Relation}
    (hbefore : Crossed g start before collection) (hscope : segment.scope = none)
    (hsegment : segment ∈ g.segments)
    (hrelation : g.schema.relation? collection segment.name = some relation)
    (hknows : g.schema.Knows g.segments collection segment.name)
    (hone : relation.cardinality.leadsToMany = false) :
    Attempt.Ensures
      (fun t => t.Situated g outer ∧ t.plan.collection = start ∧
        ⟨qualifier, some collection⟩ ∈ g.sight (t.plan.labelled outer))
      (JoinPlan.connect g.schema (before ++ [segment]) qualifier relation)
      fun connection t => t.Situated g outer ∧ t.plan.collection = start ∧
        ∀ related, relation.related = .ok related →
          ⟨connection.label, some related⟩ ∈ g.sight (t.plan.labelled outer) := by
  unfold JoinPlan.connect
  refine Attempt.Ensures.bind
    (R := fun seen t => t = seen ∧ t.Situated g outer ∧ t.plan.collection = start ∧
      ⟨qualifier, some collection⟩ ∈ g.sight (t.plan.labelled outer))
    (Attempt.ensures_state fun t ht => ⟨rfl, ht⟩) fun seen => ?_
  cases hlookup : seen.plan.sources.lookup (JoinPlan.pathText (before ++ [segment])) with
  | some label =>
      refine Attempt.ensures_pure ?_
      rintro t ⟨rfl, ht, rfl, hsource⟩
      refine ⟨ht, rfl, fun related hrelated => List.mem_cons_of_mem _ ?_⟩
      have hcrossed := hbefore.concat hscope hsegment hrelation hrelated
      exact hcrossed.source_mem ht.plan (by simp) hlookup
  | none =>
      refine Attempt.Ensures.bind
        (R := fun related t => relation.related = .ok related ∧ t.Situated g outer ∧
          t.plan.collection = start ∧
          ⟨qualifier, some collection⟩ ∈ g.sight (t.plan.labelled outer))
        (Attempt.ensures_ofExcept fun t related ht hrelated => ⟨hrelated, ht.2⟩) fun related => ?_
      split
      · exact Attempt.ensures_fail _
      · rename_i found hfound
        refine Attempt.ensures_ofState ?_
        rintro t ⟨hrelated, ht, rfl, hsource⟩
        have hcrossed := hbefore.concat hscope hsegment hrelation hrelated
        have hprimary : g.schema.primaryKey related = .ok found.primary := by
          rw [Schema.primaryKey, hfound]
        have hparent : g.LeadsToOne (t.plan.labelled outer) qualifier relation.field related := by
          rw [(Schema.eq_of_relation? hrelation).2.2]
          exact ⟨collection, relation, hsource, hknows, hrelation, hone,
            Relation.related_eq_ok_iff.1 hrelated⟩
        refine ⟨Planning.situated_add ht hcrossed (by simp) hprimary hparent, rfl, ?_⟩
        intro related' hrelated'
        rw [hrelated] at hrelated'
        cases hrelated'
        refine List.mem_cons_of_mem _ ?_
        rw [JoinPlan.labelled_add]
        simp [JoinPlan.joinOf, Join.source]

theorem situated_follow
    {path : List Segment} :
    ∀ {before : List Segment} {qualifier collection : String},
      Crossed g start before collection → path ⊆ g.segments →
      Attempt.Ensures
        (fun t => t.Situated g outer ∧ t.plan.collection = start ∧
          ⟨qualifier, some collection⟩ ∈ g.sight (t.plan.labelled outer))
        (JoinPlan.follow g.schema before qualifier collection path)
        fun destination t => t.Situated g outer ∧
          destination.Sound g (t.plan.labelled outer) := by
  induction path with
  | nil =>
      intro before qualifier collection _ _
      exact Attempt.ensures_fail _
  | cons segment rest ih =>
      intro before qualifier collection hbefore hpath
      obtain ⟨hsegment, hrest⟩ := List.cons_subset.1 hpath
      rw [JoinPlan.follow]
      refine Attempt.Ensures.bind
        (R := fun step t => g.schema.step qualifier collection segment rest = .ok step ∧
          t.Situated g outer ∧ t.plan.collection = start ∧
          ⟨qualifier, some collection⟩ ∈ g.sight (t.plan.labelled outer))
        (Attempt.ensures_ofExcept fun t step ht hstep => ⟨hstep, ht⟩) fun step => ?_
      cases step with
      | arrive destination =>
          refine Attempt.ensures_pure ?_
          rintro t ⟨hstep, ht, -, hsource⟩
          exact ⟨ht, Destination.sound_of_step hstep hsource hsegment hrest⟩
      | cross relation =>
          intro t ht
          obtain ⟨hstep, ht⟩ := ht
          obtain ⟨hrelation, hscope, hknows, hone⟩ := Schema.cross_of_step hstep
          refine ((situated_connect hbefore hscope hsegment hrelation hknows hone).bind
            fun connection => ?_) t ht
          refine Attempt.Ensures.bind
            (R := fun related t => relation.related = .ok related ∧ t.Situated g outer ∧
              t.plan.collection = start ∧
              ⟨connection.label, some related⟩ ∈ g.sight (t.plan.labelled outer))
            (Attempt.ensures_ofExcept fun t related ht hrelated =>
              ⟨hrelated, ht.1, ht.2.1, ht.2.2 related hrelated⟩) fun related => ?_
          rintro t ⟨hrelated, ht⟩
          exact ih (hbefore.concat hscope hsegment hrelation hrelated) hrest t ht

end Planning

section Compiling

variable {g : Ground} {outer : List Source}

/-- A path leads to a place in sight. -/
theorem situated_locate
    {path : List Segment}
    (hpath : path ⊆ g.segments) :
    Attempt.Ensures (Progress.Situated g outer) (Compiling.locate g.schema path)
      fun destination p => p.Situated g outer ∧ destination.Sound g (p.plan.labelled outer) := by
  refine Attempt.ensures_focus fun p hp => ?_
  unfold JoinPlan.locate
  refine Attempt.Ensures.bind (R := fun seen t => t = p.planning ∧ seen = t)
    (Attempt.ensures_state fun t ht => ⟨ht, rfl⟩) fun seen => ?_
  rintro t ⟨rfl, rfl⟩
  refine situated_follow (Crossed.nil g p.plan.collection) hpath p.planning ⟨hp, rfl, ?_⟩
  have hsubset := Ground.sight_subset (g := g)
    (List.subset_append_left outer (p.plan.joins.map Join.source))
  exact hsubset hp.plan.own

/-- A path whose destination is known leads to a place in sight. -/
theorem Progress.Situated.sound_of_destination?
    {path : List Segment} {destination : Destination} {p : Progress}
    (h : p.Situated g outer) (hpath : path ⊆ g.segments)
    (hdestination : p.plan.destination? g.schema path = some destination) :
    destination.Sound g (p.plan.labelled outer) :=
  (situated_locate hpath p h destination p (run_locate hdestination)).2

mutual

theorem situated_planJoins
    {s : Setting} (hschema : s.schema = g.schema) :
    ∀ {filter : Filter}, filter.segments ⊆ g.segments →
      Attempt.Ensures (Progress.Situated g outer) (planJoins s filter)
        fun _ p => p.Situated g outer
  | .and children, h => by
      rw [planJoins]
      exact situated_planAllJoins hschema h
  | .or children, h => by
      rw [planJoins]
      split
      · exact Attempt.ensures_pure fun p hp => hp
      · exact situated_planAllJoins hschema h
  | .compare _ path _ _, h => by
      rw [planJoins, hschema]
      exact (situated_locate h).bind fun _ => Attempt.ensures_pure fun p hp => hp.1
  | .quantify _ field _ _, h => by
      rw [planJoins, hschema]
      have hfield : [field] ⊆ g.segments := by simpa using (List.cons_subset.1 h).1
      exact (situated_locate hfield).bind fun _ => Attempt.ensures_pure fun p hp => hp.1

theorem situated_planAllJoins
    {s : Setting} (hschema : s.schema = g.schema) :
    ∀ {filters : List Filter}, Filter.segmentsOfAll filters ⊆ g.segments →
      Attempt.Ensures (Progress.Situated g outer) (planAllJoins s filters)
        fun _ p => p.Situated g outer
  | [], _ => by
      rw [planAllJoins]
      exact Attempt.ensures_pure fun p hp => hp
  | child :: rest, h => by
      obtain ⟨hchild, hrest⟩ := List.append_subset.1 h
      rw [planAllJoins]
      exact (situated_planJoins hschema hchild).bind fun _ => situated_planAllJoins hschema hrest

end

end Compiling

end RowFilter
