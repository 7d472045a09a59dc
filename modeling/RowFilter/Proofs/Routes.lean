import Mathlib.Tactic.SplitIfs
import RowFilter.Proofs.Places

/-!
# The route of a path

Which relations a path crosses and where it ends is a matter of the schema alone.  Joins
only give names to the row sources on the way: following a path plans a join for every
relation that it crosses and that has none, and ends where its route ends, in the row
source behind the last relation.  A path that leads nowhere leaves the joins of the
relations that it crossed.

* `Schema.route`: the relations to one row that a path crosses, and its end.
* `Planning.crossAll`: plans the joins of relations that are crossed.
* `JoinPlan.run_locate_route`: following a path does this for the relations of its route.
* `JoinPlan.crossAll_route_induction`: what every crossing keeps, following a path keeps.
-/

namespace RowFilter

/-! ## Crossings -/

/-- A relation to one row, behind the names by which it is reached. -/
structure Crossing where
  /-- The names that lead to the collection of the relation. -/
  before : List String
  /-- The field of the relation. -/
  field : String
  /-- The collection behind the relation. -/
  related : String
  /-- The primary key of that collection. -/
  primary : String

namespace Crossing

/-- The names that lead behind the relation. -/
def names (c : Crossing) : List String :=
  c.before ++ [c.field]

/-- The collection that the names lead to declares the relation, which is one to one row
of a collection with this primary key. -/
def Declared (schema : Schema) (start : String) (c : Crossing) : Prop :=
  ∃ collection relation, schema.reach start c.before = some collection ∧
    (schema.field? collection c.field).isSome = true ∧
    schema.relation? collection c.field = some relation ∧
    relation.cardinality = .manyToOne ∧ relation.relatedCollection = some c.related ∧
    (schema.collection? c.related).map Collection.primary = some c.primary

theorem names_ne_nil
    (c : Crossing) :
    c.names ≠ [] := by
  simp [names]

/-- Behind the relation is the collection that it leads to. -/
theorem Declared.reach_names
    {schema : Schema} {start : String} {c : Crossing}
    (h : c.Declared schema start) :
    schema.reach start c.names = some c.related := by
  obtain ⟨collection, relation, hreach, -, hrelation, -, hrelated, -⟩ := h
  exact Schema.reach_concat hreach hrelation (Relation.related_eq_ok_iff.2 hrelated)

end Crossing

/-- The crossing of a relation to one row that a segment names; none if the segment names
no such relation, chooses a collection or a position, or leads to a collection that the
schema does not have. -/
def Schema.crossing? (schema : Schema) (before : List String) (collection : String)
    (segment : Segment) : Option Crossing := do
  let _ ← schema.field? collection segment.name
  let relation ← schema.relation? collection segment.name
  let related ← relation.relatedCollection
  let found ← schema.collection? related
  if relation.cardinality = .manyToOne ∧ segment.scope = none ∧ segment.index = none then
    some ⟨before, segment.name, related, found.primary⟩
  else
    none

/-! ## Routes -/

/-- The same destination, with its field in another row source. -/
def Destination.inSource (qualifier : String) : Destination → Destination
  | .column place relation => .column { place with qualifier := qualifier } relation
  | .toMany place relation scope rest =>
      .toMany { place with qualifier := qualifier } relation scope rest
  | .json place rest => .json { place with qualifier := qualifier } rest

/-- The same step, taken in another row source. -/
def Step.inSource (qualifier : String) : Step → Step
  | .arrive destination => .arrive (destination.inSource qualifier)
  | .cross relation => .cross relation

/-- Where a path leads by the schema alone. -/
structure Route where
  /-- The relations to one row on its way. -/
  crossings : List Crossing
  /-- The names that lead to the row source of its end. -/
  behind : List String
  /-- Its end, in a row source without a name, or why it leads nowhere. -/
  outcome : Except QueryError Destination

/-- The end of a path at a segment that crosses no relation. -/
def Schema.endOf (schema : Schema) (collection : String) (segment : Segment)
    (rest : List Segment) : Except QueryError Destination := do
  match ← schema.step "" collection segment rest with
  | .arrive destination => return destination
  | .cross relation =>
      let related ← relation.related
      .error (.unknownRelatedCollection related)

/-- The route of a path on from a collection, behind the names `before`. -/
def Schema.routeFrom (schema : Schema) (before : List String) (collection : String) :
    List Segment → Route
  | [] => ⟨[], before, .error .emptyPath⟩
  | segment :: rest =>
      match if rest.isEmpty then none else schema.crossing? before collection segment with
      | none => ⟨[], before, schema.endOf collection segment rest⟩
      | some c =>
          let route := schema.routeFrom c.names c.related rest
          ⟨c :: route.crossings, route.behind, route.outcome⟩

/-- The route of a path from a collection. -/
def Schema.route (schema : Schema) (collection : String) (path : List Segment) : Route :=
  schema.routeFrom [] collection path

namespace Schema

variable {schema : Schema} {collection : String} {segment : Segment} {rest : List Segment}

/-- A step is the same in all row sources. -/
theorem step_inSource
    (schema : Schema) (qualifier qualifier' collection : String) (segment : Segment)
    (rest : List Segment) :
    schema.step qualifier collection segment rest =
      (schema.step qualifier' collection segment rest).map (Step.inSource qualifier) := by
  unfold step
  cases schema.field? collection segment.name with
  | none => rfl
  | some field =>
      cases schema.relation? collection segment.name with
      | none =>
          simp only [Place.arrive]
          split_ifs <;> rfl
      | some relation =>
          simp only [Place.relate]
          split_ifs
          all_goals first
            | rfl
            | cases segment.choose relation <;> rfl

/-- A path goes on behind a declared relation to one row, if something of it is left and
the segment chooses neither a collection nor a position. -/
theorem step_eq_cross_iff
    {qualifier : String} {relation : Relation} :
    schema.step qualifier collection segment rest = .ok (.cross relation) ↔
      (schema.field? collection segment.name).isSome = true ∧
        schema.relation? collection segment.name = some relation ∧
        relation.cardinality = .manyToOne ∧ segment.scope = none ∧ segment.index = none ∧
        rest ≠ [] := by
  unfold step
  cases hfield : schema.field? collection segment.name with
  | none => simp
  | some field =>
      cases hrelation : schema.relation? collection segment.name with
      | none =>
          simp only [Place.arrive]
          split_ifs <;> simp [Except.map]
      | some found =>
          simp only [Option.isSome_some, true_and, Option.some.injEq]
          constructor
          · intro h
            unfold Place.relate at h
            split at h
            · cases h
            · rename_i hindex
              obtain ⟨scope, hscope, h⟩ := exists_of_bind_ok h
              split_ifs at h with hmany hrest
              all_goals cases h
              have hone := Bool.eq_false_iff.2 hmany
              exact ⟨rfl, Cardinality.leadsToMany_eq_false_iff.1 hone,
                (Segment.scope_of_choose hscope).2 hone, by simpa using hindex,
                by simpa using hrest⟩
          · rintro ⟨rfl, hcardinality, hscope, hindex, hrest⟩
            simp [Place.relate, hindex, Segment.choose, hcardinality, hscope,
              Cardinality.leadsToMany, hrest, bind, Except.bind, pure, Except.pure]

theorem crossing?_eq_some_iff
    {before : List String} {c : Crossing} :
    schema.crossing? before collection segment = some c ↔
      ∃ relation, (schema.field? collection segment.name).isSome = true ∧
        schema.relation? collection segment.name = some relation ∧
        relation.cardinality = .manyToOne ∧ segment.scope = none ∧ segment.index = none ∧
        relation.relatedCollection = some c.related ∧
        (schema.collection? c.related).map Collection.primary = some c.primary ∧
        c.before = before ∧ c.field = segment.name := by
  unfold crossing?
  constructor
  · intro h
    obtain ⟨field, hfield, h⟩ := Option.bind_eq_some_iff.1 h
    obtain ⟨relation, hrelation, h⟩ := Option.bind_eq_some_iff.1 h
    obtain ⟨related, hrelated, h⟩ := Option.bind_eq_some_iff.1 h
    obtain ⟨found, hfound, h⟩ := Option.bind_eq_some_iff.1 h
    split at h
    · rename_i hform
      cases h
      exact ⟨relation, by simp [hfield], hrelation, hform.1, hform.2.1, hform.2.2, hrelated,
        by simp [hfound], rfl, rfl⟩
    · cases h
  · rintro ⟨relation, hfield, hrelation, hcardinality, hscope, hindex, hrelated, hprimary, rfl,
      hname⟩
    obtain ⟨field, hfield⟩ := Option.isSome_iff_exists.1 hfield
    obtain ⟨found, hfound, hprimary⟩ := Option.map_eq_some_iff.1 hprimary
    obtain ⟨before, name, related, primary⟩ := c
    cases hname
    cases hprimary
    simp [hfield, hrelation, hrelated, hfound, hcardinality, hscope, hindex]

end Schema

/-- The step over a crossing: the path goes on behind its relation. -/
theorem Schema.step_of_crossing?
    {schema : Schema} {before : List String} {collection : String} {segment : Segment}
    {rest : List Segment} {c : Crossing}
    (hrest : rest ≠ [])
    (h : schema.crossing? before collection segment = some c) (qualifier : String) :
    ∃ relation, schema.step qualifier collection segment rest = .ok (.cross relation) ∧
      schema.relation? collection segment.name = some relation ∧
      relation.relatedCollection = some c.related := by
  obtain ⟨relation, hfield, hrelation, hcardinality, hscope, hindex, hrelated, -⟩ :=
    Schema.crossing?_eq_some_iff.1 h
  exact ⟨relation, Schema.step_eq_cross_iff.2
    ⟨hfield, hrelation, hcardinality, hscope, hindex, hrest⟩, hrelation, hrelated⟩

theorem Crossing.names_of_crossing?
    {schema : Schema} {before : List String} {collection : String} {segment : Segment}
    {c : Crossing}
    (h : schema.crossing? before collection segment = some c) :
    c.names = before ++ [segment.name] := by
  obtain ⟨-, -, -, -, -, -, -, -, hbefore, hname⟩ := Schema.crossing?_eq_some_iff.1 h
  rw [Crossing.names, hbefore, hname]

theorem Crossing.declared_of_crossing?
    {schema : Schema} {start : String} {before : List String} {collection : String}
    {segment : Segment} {c : Crossing}
    (hreach : schema.reach start before = some collection)
    (h : schema.crossing? before collection segment = some c) :
    c.Declared schema start := by
  obtain ⟨relation, hfield, hrelation, hcardinality, -, -, hrelated, hprimary, hbefore, hname⟩ :=
    Schema.crossing?_eq_some_iff.1 h
  rw [← hname] at hfield hrelation
  rw [← hbefore] at hreach
  exact ⟨collection, relation, hreach, hfield, hrelation, hcardinality, hrelated, hprimary⟩

/-- Declared relations to one row that are crossed one behind the other. -/
def Crossing.Chain (schema : Schema) (start : String) : List String → List Crossing → Prop
  | _, [] => True
  | before, c :: rest =>
      c.before = before ∧ c.Declared schema start ∧ Chain schema start c.names rest

/-- A route goes over declared relations, one behind the other. -/
theorem Schema.chain_routeFrom
    {schema : Schema} {start : String} {path : List Segment} :
    ∀ {before : List String} {collection : String},
      schema.reach start before = some collection →
        Crossing.Chain schema start before (schema.routeFrom before collection path).crossings := by
  induction path with
  | nil =>
      intro before collection _
      trivial
  | cons segment rest ih =>
      intro before collection hreach
      rw [Schema.routeFrom]
      split
      · trivial
      · rename_i c hsome
        split at hsome
        · cases hsome
        · have hdeclared := Crossing.declared_of_crossing? hreach hsome
          obtain ⟨-, -, -, -, -, -, -, -, hbefore, -⟩ := Schema.crossing?_eq_some_iff.1 hsome
          exact ⟨hbefore, hdeclared, ih hdeclared.reach_names⟩

/-- The names that lead behind the relations on a route, and to its end, are the first names
of the path. -/
theorem Schema.prefix_routeFrom
    {schema : Schema} {path : List Segment} :
    ∀ {before : List String} {collection : String},
      (∀ c ∈ (schema.routeFrom before collection path).crossings,
          c.names <+: before ++ path.map Segment.name) ∧
        (schema.routeFrom before collection path).behind <+: before ++ path.map Segment.name := by
  induction path with
  | nil =>
      intro before collection
      simp [Schema.routeFrom]
  | cons segment rest ih =>
      intro before collection
      rw [Schema.routeFrom]
      split
      · exact ⟨by simp, List.prefix_append _ _⟩
      · rename_i first hsome
        split at hsome
        · cases hsome
        · have hnames : before ++ (segment :: rest).map Segment.name =
              first.names ++ rest.map Segment.name := by
            rw [Crossing.names_of_crossing? hsome]
            simp
          rw [hnames]
          exact ⟨List.forall_mem_cons.2 ⟨List.prefix_append _ _, ih.1⟩, ih.2⟩

/-! ## Row sources by names -/

namespace JoinPlan

/-- The row source behind relations to one row that are followed by the names of their
fields, if the plan has a join for it. -/
def sourceOf? (plan : JoinPlan) (names : List String) : Option String :=
  if names = [] then some plan.qualifier else plan.sources.lookup (".".intercalate names)

/-- Every join of the plan is that of a declared relation to one row, and is recorded
under the names that lead behind it. -/
def Faithful (schema : Schema) (plan : JoinPlan) : Prop :=
  ∀ text label, plan.sources.lookup text = some label →
    ∃ c : Crossing, c.Declared schema plan.collection ∧ (∀ name ∈ c.names, Dotless name) ∧
      text = ".".intercalate c.names

theorem faithful_start
    (schema : Schema) (collection qualifier : String) :
    (start collection qualifier).Faithful schema := by
  intro text label h
  cases h

@[simp] theorem sourceOf?_nil
    (plan : JoinPlan) :
    plan.sourceOf? [] = some plan.qualifier :=
  rfl

theorem sourceOf?_names
    (plan : JoinPlan) (c : Crossing) :
    plan.sourceOf? c.names = plan.sources.lookup (".".intercalate c.names) := by
  simp [sourceOf?, c.names_ne_nil]

end JoinPlan

/-- Crosses a relation from a row source that the plan has: a join is added unless there
is one. -/
def Planning.cross (t : Planning) (c : Crossing) : Planning :=
  match t.plan.sourceOf? c.names, t.plan.sourceOf? c.before with
  | none, some parent =>
      let (label, labels) := t.labels.fresh c.related
      ⟨labels, { t.plan with
        sources := t.plan.sources ++ [(".".intercalate c.names, label)]
        joins := t.plan.joins ++ [JoinPlan.joinOf c.related label c.primary parent c.field] }⟩
  | _, _ => t

/-- Crosses relations one after the other. -/
def Planning.crossAll (t : Planning) (crossings : List Crossing) : Planning :=
  crossings.foldl Planning.cross t

namespace Planning

variable {schema : Schema} {t : Planning} {c : Crossing}

@[simp] theorem crossAll_nil
    (t : Planning) :
    t.crossAll [] = t :=
  rfl

@[simp] theorem crossAll_cons
    (t : Planning) (c : Crossing) (rest : List Crossing) :
    t.crossAll (c :: rest) = (t.cross c).crossAll rest :=
  rfl

/-- A relation that was crossed before has its join. -/
theorem cross_of_source
    {label : String}
    (h : t.plan.sourceOf? c.names = some label) :
    t.cross c = t := by
  simp [cross, h]

/-- The first crossing of a relation adds its join. -/
theorem cross_of_new
    {parent : String}
    (hnew : t.plan.sourceOf? c.names = none)
    (hparent : t.plan.sourceOf? c.before = some parent) :
    t.cross c =
      ⟨(t.labels.fresh c.related).2, { t.plan with
        sources := t.plan.sources ++ [(".".intercalate c.names, (t.labels.fresh c.related).1)]
        joins := t.plan.joins ++
          [JoinPlan.joinOf c.related (t.labels.fresh c.related).1 c.primary parent c.field] }⟩ := by
  simp [cross, hnew, hparent]

/-- What a crossing does: nothing, or it adds a join. -/
theorem cross_cases
    (t : Planning) (c : Crossing) :
    t.cross c = t ∨ ∃ parent, t.plan.sourceOf? c.names = none ∧
      t.plan.sourceOf? c.before = some parent ∧
      t.cross c =
        ⟨(t.labels.fresh c.related).2, { t.plan with
          sources := t.plan.sources ++ [(".".intercalate c.names, (t.labels.fresh c.related).1)]
          joins := t.plan.joins ++
            [JoinPlan.joinOf c.related (t.labels.fresh c.related).1 c.primary parent
              c.field] }⟩ := by
  cases hnames : t.plan.sourceOf? c.names with
  | some label => exact .inl (cross_of_source hnames)
  | none =>
      cases hbefore : t.plan.sourceOf? c.before with
      | none => exact .inl (by simp [cross, hnames, hbefore])
      | some parent => exact .inr ⟨parent, rfl, rfl, cross_of_new hnames hbefore⟩

/-- Crossing a relation keeps the plan, up to the join that it adds. -/
theorem extends_cross
    (t : Planning) (c : Crossing) :
    t.plan.Extends (t.cross c).plan := by
  rcases cross_cases t c with h | ⟨parent, hnew, -, h⟩
  · rw [h]
    exact .refl _
  · rw [h]
    refine ⟨rfl, rfl, fun text label hlabel => ?_⟩
    simp [List.lookup_append, hlabel]

/-- A row source stays where it is. -/
theorem source_of_extends
    {old new : JoinPlan} {names : List String} {label : String}
    (hextends : old.Extends new)
    (h : old.sourceOf? names = some label) :
    new.sourceOf? names = some label := by
  unfold JoinPlan.sourceOf? at h ⊢
  split at h
  · rw [if_pos ‹_›, hextends.qualifier, h]
  · rw [if_neg ‹_›]
    exact hextends.sources _ _ h

/-- Behind a relation that was crossed there is a row source. -/
theorem source_of_cross
    {parent : String}
    (hparent : t.plan.sourceOf? c.before = some parent) :
    ∃ label, (t.cross c).plan.sourceOf? c.names = some label := by
  cases hnames : t.plan.sourceOf? c.names with
  | some label =>
      rw [cross_of_source hnames]
      exact ⟨label, hnames⟩
  | none =>
      rw [cross_of_new hnames hparent]
      rw [JoinPlan.sourceOf?_names] at hnames ⊢
      exact ⟨(t.labels.fresh c.related).1, by simp [List.lookup_append, hnames]⟩

theorem faithful_cross
    (h : t.plan.Faithful schema)
    (hdeclared : c.Declared schema t.plan.collection)
    (hdotless : ∀ name ∈ c.names, Dotless name) :
    (t.cross c).plan.Faithful schema := by
  rcases cross_cases t c with heq | ⟨parent, -, -, heq⟩
  · rwa [heq]
  · rw [heq]
    intro text label hlookup
    simp only [List.lookup_append, Option.or_eq_some_iff] at hlookup
    rcases hlookup with hold | ⟨-, hnew⟩
    · exact h text label hold
    · rw [List.lookup_cons] at hnew
      split at hnew
      · rename_i heq
        exact ⟨c, hdeclared, hdotless, eq_of_beq heq⟩
      · cases hnew

theorem extends_crossAll
    (t : Planning) (crossings : List Crossing) :
    t.plan.Extends (t.crossAll crossings).plan := by
  induction crossings generalizing t with
  | nil => exact .refl _
  | cons c rest ih => exact (extends_cross t c).trans (ih (t.cross c))

/-- Where the joins are planned, crossing their relations changes nothing. -/
theorem crossAll_of_sources
    {crossings : List Crossing}
    (h : ∀ c ∈ crossings, ∃ label, t.plan.sourceOf? c.names = some label) :
    t.crossAll crossings = t := by
  induction crossings with
  | nil => rfl
  | cons c rest ih =>
      obtain ⟨⟨label, hlabel⟩, hrest⟩ := List.forall_mem_cons.1 h
      rw [crossAll_cons, cross_of_source hlabel]
      exact ih hrest

/-- What every crossing keeps, relations that are crossed one behind the other keep; it may
depend on the relations that were crossed. -/
theorem crossAll_induction
    {P : List Crossing → Planning → Prop} {start : String}
    (hstep : ∀ past t c parent, P past t → t.plan.collection = start → c.Declared schema start →
      (∀ name ∈ c.names, Dotless name) → t.plan.sourceOf? c.before = some parent →
        P (past ++ [c]) (t.cross c)) :
    ∀ {crossings past : List Crossing} {before : List String} {t : Planning} {source : String},
      Crossing.Chain schema start before crossings →
      (∀ c ∈ crossings, ∀ name ∈ c.names, Dotless name) →
      t.plan.collection = start → t.plan.sourceOf? before = some source → P past t →
        P (past ++ crossings) (t.crossAll crossings) := by
  intro crossings
  induction crossings with
  | nil =>
      intro past before t source _ _ _ _ h
      rwa [List.append_nil]
  | cons c rest ih =>
      intro past before t source hchain hdotless hstart hsource h
      obtain ⟨rfl, hdeclared, hchain⟩ := hchain
      obtain ⟨hc, hrest⟩ := List.forall_mem_cons.1 hdotless
      obtain ⟨label, hlabel⟩ := source_of_cross hsource
      have hstart' : (t.cross c).plan.collection = start :=
        (extends_cross t c).collection.trans hstart
      have hnext := ih hchain hrest hstart' hlabel
        (hstep past t c source h hstart hdeclared hc hsource)
      rwa [List.append_assoc] at hnext

end Planning

/-! ## Following a route -/

namespace JoinPlan

variable {schema : Schema} {t : Planning} {before : List Segment}
  {qualifier collection : String} {segment : Segment} {rest : List Segment}

/-- The segments lead from the collection of a plan to a collection in a row source: they
choose nothing, and the plan has the joins. -/
structure Followed (schema : Schema) (plan : JoinPlan) (before : List Segment)
    (qualifier collection : String) : Prop where
  scopeless : ∀ s ∈ before, s.scope = none
  dotless : ∀ s ∈ before, Dotless s.name
  reach : schema.reach plan.collection (before.map Segment.name) = some collection
  source : plan.sourceOf? (before.map Segment.name) = some qualifier

theorem followed_nil
    (schema : Schema) (plan : JoinPlan) :
    Followed schema plan [] plan.qualifier plan.collection :=
  ⟨by simp, by simp, rfl, rfl⟩

/-- The text of a path up to a relation that it crosses. -/
theorem pathText_concat
    {names : List String}
    (hbefore : ∀ s ∈ before, s.scope = none) (hscope : segment.scope = none)
    (hnames : names = before.map Segment.name ++ [segment.name]) :
    pathText (before ++ [segment]) = ".".intercalate names := by
  have hscopeless : ∀ s ∈ before ++ [segment], s.scope = none := by
    intro s hs
    rcases List.mem_append.1 hs with hs | hs
    · exact hbefore s hs
    · rw [List.mem_singleton.1 hs, hscope]
  rw [pathText_of_scopeless hscopeless, List.map_append, hnames]
  rfl

/-- The segments up to a relation that is crossed lead behind it. -/
theorem Followed.concat
    {c : Crossing} {label : String}
    (h : Followed schema t.plan before qualifier collection)
    (hdotless : Dotless segment.name)
    (hcrossing : schema.crossing? (before.map Segment.name) collection segment = some c)
    (hsource : (t.cross c).plan.sourceOf? c.names = some label) :
    Followed schema (t.cross c).plan (before ++ [segment]) label c.related := by
  have hnames : (before ++ [segment]).map Segment.name = c.names := by
    rw [List.map_append, Crossing.names_of_crossing? hcrossing]
    rfl
  refine ⟨?_, ?_, ?_, hnames ▸ hsource⟩
  · intro s hs
    rcases List.mem_append.1 hs with hs | hs
    · exact h.scopeless s hs
    · obtain ⟨-, -, -, -, hscope, -⟩ := Schema.crossing?_eq_some_iff.1 hcrossing
      rw [List.mem_singleton.1 hs, hscope]
  · intro s hs
    rcases List.mem_append.1 hs with hs | hs
    · exact h.dotless s hs
    · rwa [List.mem_singleton.1 hs]
  · rw [hnames, (Planning.extends_cross t c).collection]
    exact (Crossing.declared_of_crossing? h.reach hcrossing).reach_names

/-- A declared relation to one row is connected by the join of its crossing. -/
theorem run_connect_of_crossing?
    {relation : Relation} {c : Crossing}
    (hfollowed : Followed schema t.plan before qualifier collection)
    (hrelation : schema.relation? collection segment.name = some relation)
    (hcrossing : schema.crossing? (before.map Segment.name) collection segment = some c) :
    ∃ connection, (connect schema (before ++ [segment]) qualifier relation).run t =
        (.ok connection, t.cross c) ∧
      (t.cross c).plan.sourceOf? c.names = some connection.label := by
  obtain ⟨relation', -, hrelation', -, hscope, -, hrelated, hprimary, hbefore, hname⟩ :=
    Schema.crossing?_eq_some_iff.1 hcrossing
  have hsame : some relation = some relation' := by rw [← hrelation, hrelation']
  cases hsame
  obtain ⟨found, hfound, hprimary⟩ := Option.map_eq_some_iff.1 hprimary
  have htext := pathText_concat hfollowed.scopeless hscope (Crossing.names_of_crossing? hcrossing)
  have hfield : relation.field = c.field := by
    rw [(Schema.eq_of_relation? hrelation).2.2, hname]
  have hparent : t.plan.sourceOf? c.before = some qualifier := by
    rw [hbefore, hfollowed.source]
  unfold connect
  rw [Attempt.run_bind_of_ok _ (Attempt.run_state _)]
  cases hlookup : t.plan.sources.lookup (pathText (before ++ [segment])) with
  | some label =>
      have hsource : t.plan.sourceOf? c.names = some label := by
        rw [sourceOf?_names, ← htext, hlookup]
      rw [Planning.cross_of_source hsource]
      exact ⟨_, rfl, hsource⟩
  | none =>
      have hnew : t.plan.sourceOf? c.names = none := by
        rw [sourceOf?_names, ← htext, hlookup]
      rw [Planning.cross_of_new hnew hparent]
      refine ⟨⟨true, relation.cardinality.leadsToMany, (t.labels.fresh c.related).1⟩, ?_, ?_⟩
      · simp only [Attempt.run_bind_of_ok _ (Attempt.run_ofExcept _ t),
          Relation.related_eq_ok_iff.2 hrelated, hfound, Attempt.run_ofState, add, htext, hfield,
          hprimary]
      · rw [sourceOf?_names, ← htext]
        simp [List.lookup_append, hlookup]

/-- A relation to one row that is no crossing, because it leads to no collection of the
schema, has no join. -/
theorem lookup_of_crossing?_eq_none
    {relation : Relation}
    (hfaithful : t.plan.Faithful schema)
    (hfollowed : Followed schema t.plan before qualifier collection)
    (hdotless : Dotless segment.name)
    (hstep : schema.step qualifier collection segment rest = .ok (.cross relation))
    (hcrossing : schema.crossing? (before.map Segment.name) collection segment = none) :
    t.plan.sources.lookup (pathText (before ++ [segment])) = none := by
  obtain ⟨hfield, hrelation, hcardinality, hscope, hindex, -⟩ := Schema.step_eq_cross_iff.1 hstep
  rw [pathText_concat hfollowed.scopeless hscope rfl]
  refine Option.eq_none_iff_forall_ne_some.2 fun label hlookup => ?_
  obtain ⟨c, hdeclared, hnames, htext⟩ := hfaithful _ label hlookup
  -- the names are told from the text, so the join would be that of this very relation
  have hsame : before.map Segment.name ++ [segment.name] = c.names := by
    refine dotless_intercalate_inj (by simp) c.names_ne_nil ?_ hnames htext
    intro name hname
    rcases List.mem_append.1 hname with hname | hname
    · exact List.forall_mem_map.2 hfollowed.dotless name hname
    · rwa [List.mem_singleton.1 hname]
  obtain ⟨hbefore, hname⟩ := List.append_inj' hsame rfl
  have hname : segment.name = c.field := List.singleton_inj.1 hname
  obtain ⟨found, declared, hreach, -, hdeclared, -, hrelated, hprimary⟩ := hdeclared
  rw [← hbefore, hfollowed.reach] at hreach
  cases hreach
  rw [← hname, hrelation] at hdeclared
  cases hdeclared
  have hsome : schema.crossing? (before.map Segment.name) collection segment = some c :=
    Schema.crossing?_eq_some_iff.2 ⟨relation, hfield, hrelation, hcardinality, hscope, hindex,
      hrelated, hprimary, hbefore.symm, hname.symm⟩
  rw [hcrossing] at hsome
  cases hsome

/-- A relation to one row that is no crossing cannot be connected: it leads to no
collection, or to one that the schema does not have. -/
theorem run_connect_of_crossing?_eq_none
    {relation : Relation}
    (hfaithful : t.plan.Faithful schema)
    (hfollowed : Followed schema t.plan before qualifier collection)
    (hdotless : Dotless segment.name)
    (hstep : schema.step qualifier collection segment rest = .ok (.cross relation))
    (hcrossing : schema.crossing? (before.map Segment.name) collection segment = none) :
    ∃ e, (connect schema (before ++ [segment]) qualifier relation).run t = (.error e, t) ∧
      (relation.related = .error e ∨
        ∃ related, relation.related = .ok related ∧ e = .unknownRelatedCollection related) := by
  have hlookup := lookup_of_crossing?_eq_none hfaithful hfollowed hdotless hstep hcrossing
  unfold connect
  rw [Attempt.run_bind_of_ok _ (Attempt.run_state _), hlookup]
  cases hrelated : relation.related with
  | error e => exact ⟨e, rfl, .inl rfl⟩
  | ok related =>
      refine ⟨.unknownRelatedCollection related, ?_, .inr ⟨related, rfl, rfl⟩⟩
      rw [Attempt.run_bind_of_ok _ (Attempt.run_ofExcept _ t)]
      cases hfound : schema.collection? related with
      | none => rfl
      | some found =>
          obtain ⟨hfield, hrelation, hcardinality, hscope, hindex, -⟩ :=
            Schema.step_eq_cross_iff.1 hstep
          have hsome : schema.crossing? (before.map Segment.name) collection segment =
              some ⟨before.map Segment.name, segment.name, related, found.primary⟩ :=
            Schema.crossing?_eq_some_iff.2 ⟨relation, hfield, hrelation, hcardinality, hscope,
              hindex, Relation.related_eq_ok_iff.1 hrelated, by simp [hfound], rfl, rfl⟩
          rw [hcrossing] at hsome
          cases hsome

/-- A path that crosses nothing leads to the end of its route, and nothing changes. -/
theorem run_follow_of_no_crossing
    (hfaithful : t.plan.Faithful schema)
    (hfollowed : Followed schema t.plan before qualifier collection)
    (hdotless : Dotless segment.name)
    (hcrossing : rest = [] ∨ schema.crossing? (before.map Segment.name) collection segment = none) :
    (follow schema before qualifier collection (segment :: rest)).run t =
      ((schema.endOf collection segment rest).map (Destination.inSource qualifier), t) := by
  rw [follow]
  unfold Schema.endOf
  have hsource := schema.step_inSource qualifier "" collection segment rest
  cases hstep : schema.step "" collection segment rest with
  | error e =>
      rw [hstep] at hsource
      rw [hsource]
      rfl
  | ok step =>
      rw [hstep] at hsource
      cases step with
      | arrive destination =>
          rw [hsource]
          rfl
      | cross relation =>
          replace hsource : schema.step qualifier collection segment rest =
              .ok (.cross relation) := hsource
          have hrest := (Schema.step_eq_cross_iff.1 hstep).2.2.2.2.2
          obtain ⟨e, hconnect, herror⟩ := run_connect_of_crossing?_eq_none hfaithful hfollowed
            hdotless hsource (hcrossing.resolve_left hrest)
          rw [hsource]
          rw [Attempt.run_bind_of_ok _ rfl]
          rw [Attempt.run_bind_of_error _ hconnect]
          rcases herror with herror | ⟨related, hrelated, rfl⟩
          · simp [bind, Except.bind, herror, Except.map]
          · simp [bind, Except.bind, hrelated, Except.map]

/-- Following a path plans the joins of its route, and leads to its end in the row source
behind the last of them. -/
theorem run_follow_route
    {path : List Segment} :
    ∀ {t : Planning} {before : List Segment} {qualifier collection : String} {route : Route},
      t.plan.Faithful schema → Followed schema t.plan before qualifier collection →
      (∀ s ∈ path, Dotless s.name) →
      schema.routeFrom (before.map Segment.name) collection path = route →
        ∃ source, (t.crossAll route.crossings).plan.sourceOf? route.behind = some source ∧
          (follow schema before qualifier collection path).run t =
            (route.outcome.map (Destination.inSource source), t.crossAll route.crossings) := by
  induction path with
  | nil =>
      rintro t before qualifier collection _ _ hfollowed _ rfl
      exact ⟨qualifier, hfollowed.source, rfl⟩
  | cons segment rest ih =>
      rintro t before qualifier collection _ hfaithful hfollowed hdotless rfl
      have hsegment := hdotless segment List.mem_cons_self
      rw [Schema.routeFrom]
      split
      · rename_i hnone
        refine ⟨qualifier, hfollowed.source, ?_⟩
        refine run_follow_of_no_crossing hfaithful hfollowed hsegment ?_
        split at hnone
        · exact .inl (List.isEmpty_iff.1 ‹_›)
        · exact .inr hnone
      · rename_i c hsome
        split at hsome
        · cases hsome
        · rename_i hrest
          obtain ⟨relation, hstep, hrelation, hrelated⟩ := Schema.step_of_crossing?
            (fun hnil => hrest (List.isEmpty_iff.2 hnil)) hsome qualifier
          obtain ⟨connection, hconnect, hlabel⟩ :=
            run_connect_of_crossing? hfollowed hrelation hsome
          have hnext := hfollowed.concat hsegment hsome hlabel
          have hnames : (before ++ [segment]).map Segment.name = c.names := by
            rw [List.map_append, Crossing.names_of_crossing? hsome]
            rfl
          have hfaithful' := Planning.faithful_cross hfaithful
            (Crossing.declared_of_crossing? hfollowed.reach hsome)
            (hnames ▸ List.forall_mem_map.2 hnext.dotless)
          obtain ⟨source, hsource, hrun⟩ := ih hfaithful' hnext
            (fun s hs => hdotless s (List.mem_cons_of_mem _ hs))
            (congrArg (schema.routeFrom · _ _) hnames)
          refine ⟨source, hsource, ?_⟩
          rw [follow, hstep]
          rw [Attempt.run_bind_of_ok _ rfl]
          rw [Attempt.run_bind_of_ok _ hconnect, Relation.related_eq_ok_iff.2 hrelated]
          exact hrun

/-- What every crossing keeps, crossing the relations of a path keeps. -/
theorem crossAll_route_induction
    {P : List Crossing → Planning → Prop} {path : List Segment}
    (hstep : ∀ past t c parent, P past t → c.Declared schema t.plan.collection →
      (∀ name ∈ c.names, Dotless name) → t.plan.sourceOf? c.before = some parent →
        P (past ++ [c]) (t.cross c))
    (hdotless : ∀ s ∈ path, Dotless s.name) (h : P [] t) :
    P (schema.route t.plan.collection path).crossings
      (t.crossAll (schema.route t.plan.collection path).crossings) := by
  have hnames : ∀ c ∈ (schema.route t.plan.collection path).crossings,
      ∀ name ∈ c.names, Dotless name := by
    intro c hc name hname
    have hmem := (Schema.prefix_routeFrom.1 c hc).subset hname
    exact List.forall_mem_map.2 hdotless name hmem
  have hkeeps : ∀ past u c parent, P past u → u.plan.collection = t.plan.collection →
      c.Declared schema t.plan.collection → (∀ name ∈ c.names, Dotless name) →
      u.plan.sourceOf? c.before = some parent → P (past ++ [c]) (u.cross c) := by
    intro past u c parent hu hstart hdeclared hdotless hparent
    exact hstep past u c parent hu (hstart ▸ hdeclared) hdotless hparent
  have hall := Planning.crossAll_induction hkeeps (Schema.chain_routeFrom rfl) hnames rfl
    (sourceOf?_nil t.plan) h
  rwa [List.nil_append] at hall

/-- A path from the collection of a plan leads to the end of its route, by the joins of
the route. -/
theorem run_locate_route
    {path : List Segment}
    (hfaithful : t.plan.Faithful schema) (hdotless : ∀ s ∈ path, Dotless s.name) :
    ∃ source,
      (t.crossAll (schema.route t.plan.collection path).crossings).plan.sourceOf?
          (schema.route t.plan.collection path).behind = some source ∧
        (locate schema path).run t =
          ((schema.route t.plan.collection path).outcome.map (Destination.inSource source),
            t.crossAll (schema.route t.plan.collection path).crossings) := by
  unfold locate
  rw [Attempt.run_bind_of_ok _ (Attempt.run_state _)]
  exact run_follow_route hfaithful (followed_nil schema t.plan) hdotless rfl

theorem faithful_crossAll
    {path : List Segment}
    (hfaithful : t.plan.Faithful schema) (hdotless : ∀ s ∈ path, Dotless s.name) :
    (t.crossAll (schema.route t.plan.collection path).crossings).plan.Faithful schema :=
  crossAll_route_induction (P := fun _ u => u.plan.Faithful schema)
    (fun _ _ _ _ h hdeclared hnames _ => Planning.faithful_cross h hdeclared hnames) hdotless
    hfaithful

/-- Behind every relation of a path that was followed there is a row source. -/
theorem source_of_crossAll
    {path : List Segment}
    (hdotless : ∀ s ∈ path, Dotless s.name) :
    ∀ c ∈ (schema.route t.plan.collection path).crossings,
      ∃ label, (t.crossAll (schema.route t.plan.collection path).crossings).plan.sourceOf? c.names =
        some label := by
  refine crossAll_route_induction
    (P := fun past u => ∀ c ∈ past, ∃ label, u.plan.sourceOf? c.names = some label)
    ?_ hdotless (by simp)
  intro past u c parent hpast _ _ hparent c' hc'
  rcases List.mem_append.1 hc' with hc' | hc'
  · obtain ⟨label, hlabel⟩ := hpast c' hc'
    exact ⟨label, Planning.source_of_extends (Planning.extends_cross u c) hlabel⟩
  · rw [List.mem_singleton.1 hc']
    exact Planning.source_of_cross hparent

end JoinPlan
end RowFilter
