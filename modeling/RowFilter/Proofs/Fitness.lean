import RowFilter.Proofs.Concealment
import RowFilter.Proofs.Scopes

/-!
# Operators fit the fields that they are put on

A condition is only put on a column after its operator was checked against the declared
type of a field.  The field that was checked is the one whose column is compared, in the
row source that the path led to, so the operators of a compiled statement go with the
declared types: patterns with texts, comparisons by order with ordered types, and so on.

Keys that relations bring in are compared without a check.  They are recognised by the
relation: a primary key and a field that holds it, a field that points to a primary key, or
the name of a collection.

* `Demand`: what an operator asks of a field.
* `FitsTypes`: the operator at a point of a statement goes with the fields in sight.
* `compile_fits_types`: it does, at every point of a compiled filter.
-/

namespace RowFilter

open Sql (BinaryOp Context Expr Join Source)

/-- What an operator asks of the field whose column it is put on. -/
inductive Demand where
  /-- A text. -/
  | text
  /-- Values that have an order. -/
  | order
  /-- A value that can be compared as a whole. -/
  | equality
  /-- A value of its own, or the key of a related row. -/
  | presence
  /-- A time of day. -/
  | time
  /-- A calendar date. -/
  | date
  /-- A JSON document. -/
  | document
deriving DecidableEq

/-- A field with a relation is what is asked for. -/
def Demand.metBy (field : Field) (relation : Option Relation) : Demand → Bool
  | text => field.type.isText
  | order => field.type.isOrdered
  | equality =>
      !field.type.isJson && !(field.type.isVirtual && relation.isNone) &&
        !relation.any (·.cardinality.leadsToMany)
  | presence =>
      !(field.type.isVirtual && relation.isNone) && !relation.any (·.cardinality.leadsToMany)
  | time => field.type.hasTime
  | date => field.type.hasDate
  | document => field.type.isJson

/-- What an operator between two operands asks of the first one. -/
def Sql.BinaryOp.demand : BinaryOp → Demand
  | .eq => .equality
  | .notEq => .equality
  | .lt => .order
  | .ltEq => .order
  | .gt => .order
  | .gtEq => .order
  | .like => .text
  | .notLike => .text

/-- What a component of a date or a time asks of what it is taken of. -/
def Sql.DatePart.demand : Sql.DatePart → Demand
  | .year => .date
  | .month => .date
  | .week => .date
  | .day => .date
  | .weekday => .date
  | .hour => .time
  | .minute => .time
  | .second => .time

namespace Sql.Expr

/-- The row source and the name, if the expression is a column. -/
def column? : Expr → Option (String × String)
  | .ident (some qualifier) name => some (qualifier, name)
  | _ => none

/-- What is brought to lower case, or else the expression itself. -/
def unlowered : Expr → Expr
  | .call "LOWER" [e] false => e
  | e => e

/-- What a condition is put on, and what it asks of it. -/
def asked? : Expr → Option (Demand × Expr)
  | .binary left op _ => some (op.demand, left.unlowered)
  | .inList left _ _ => some (.equality, left)
  | .between left _ _ _ => some (.order, left)
  | .isNull left _ => some (.presence, left)
  | _ => none

/-- What a function is applied to, and what it asks of it. -/
def measured? : Expr → Option (Demand × Expr)
  | .datePart part e => some (part.demand, e)
  | .jsonLength e => some (.document, e)
  | _ => none

/-- The two columns, if the expression says that they are equal. -/
def equalColumns? : Expr → Option ((String × String) × (String × String))
  | .binary (.ident (some qualifier) name) .eq (.ident (some qualifier') name') =>
      some ((qualifier, name), (qualifier', name'))
  | _ => none

end Sql.Expr

/-- The column is of a row source in sight, whose collection declares a field that is what
is asked for. -/
def Meets (schema : Schema) (ctx : Context) (demand : Demand) (column : String × String) : Prop :=
  ∃ source ∈ ctx.sources, source.name = column.1 ∧ ∃ collection ∈ source.collection,
    ∃ field ∈ schema.field? collection column.2,
      demand.metBy field (schema.relation? collection column.2) = true

/-- The primary key of rows in sight equals a field that holds it, by a relation to one row
that is declared on the field. -/
def HoldsKey (schema : Schema) (ctx : Context) (key holder : String × String) : Prop :=
  ∃ source ∈ ctx.sources, source.name = key.1 ∧ ∃ related ∈ source.collection,
    (schema.collection? related).map Collection.primary = some key.2 ∧
    ∃ parent ∈ ctx.sources, parent.name = holder.1 ∧ ∃ collection ∈ parent.collection,
      ∃ r ∈ schema.relation? collection holder.2,
        r.cardinality = .manyToOne ∧ r.relatedCollection = some related

/-- A field of rows in sight equals the primary key to which it points, by a relation that
leads from there to these rows. -/
def PointsToKey (schema : Schema) (segments : List Segment) (ctx : Context)
    (pointer key : String × String) : Prop :=
  ∃ source ∈ ctx.sources, source.name = pointer.1 ∧ ∃ related ∈ source.collection,
    ∃ parent ∈ ctx.sources, parent.name = key.1 ∧ ∃ collection ∈ parent.collection,
      (schema.collection? collection).map Collection.primary = some key.2 ∧
      ∃ r ∈ schema.relations, r.collection = collection ∧ r.LeadsTo segments related ∧
        r.relatedField = some pointer.2

/-- The equality is one that a relation brings in. -/
def FromRelation (schema : Schema) (segments : List Segment) (ctx : Context) (e : Expr) : Prop :=
  (∃ columns ∈ e.equalColumns?, HoldsKey schema ctx columns.1 columns.2 ∨
      PointsToKey schema segments ctx columns.1 columns.2) ∨
    NamesCollection schema segments ctx e

/-- A condition that is put on a column goes with its declared type, equalities that
relations bring in apart, and functions are applied to columns whose type they read. -/
def FitsTypes (schema : Schema) (segments : List Segment) (ctx : Context) (e : Expr) : Prop :=
  (∀ asked ∈ e.asked?, FromRelation schema segments ctx e ∨
      ∀ column ∈ asked.2.column?, Meets schema ctx asked.1 column) ∧
    ∀ measured ∈ e.measured?, ∃ column ∈ measured.2.column?, Meets schema ctx measured.1 column

section Decidable

variable (schema : Schema) (segments : List Segment) (ctx : Context)

instance (demand : Demand) (column : String × String) :
    Decidable (Meets schema ctx demand column) :=
  inferInstanceAs (Decidable (∃ source ∈ ctx.sources, _ ∧ ∃ collection ∈ source.collection,
    ∃ field ∈ schema.field? collection column.2, _ = true))

instance (key holder : String × String) : Decidable (HoldsKey schema ctx key holder) :=
  inferInstanceAs (Decidable (∃ source ∈ ctx.sources, _ ∧ ∃ related ∈ source.collection, _ ∧
    ∃ parent ∈ ctx.sources, _ ∧ ∃ collection ∈ parent.collection,
      ∃ r ∈ schema.relation? collection holder.2, _ ∧ _))

instance (pointer key : String × String) :
    Decidable (PointsToKey schema segments ctx pointer key) :=
  inferInstanceAs (Decidable (∃ source ∈ ctx.sources, _ ∧ ∃ related ∈ source.collection,
    ∃ parent ∈ ctx.sources, _ ∧ ∃ collection ∈ parent.collection, _ ∧
      ∃ r ∈ schema.relations, _ ∧ _))

instance (e : Expr) : Decidable (FromRelation schema segments ctx e) :=
  inferInstanceAs (Decidable ((∃ columns ∈ e.equalColumns?, _ ∨ _) ∨ _))

instance (e : Expr) : Decidable (FitsTypes schema segments ctx e) :=
  inferInstanceAs (Decidable ((∀ asked ∈ e.asked?, _ ∨ ∀ column ∈ asked.2.column?, _) ∧
    ∀ measured ∈ e.measured?, ∃ column ∈ measured.2.column?, _))

end Decidable

/-! ## What was checked -/

/-- What a criterion asks of the field whose column it is put on. -/
def Criterion.demand? : Criterion → Option Demand
  | compare op _ => some op.demand
  | like _ _ _ => some .text
  | inList _ _ => some .equality
  | between _ _ _ => some .order
  | isNull _ => some .presence
  | never => none
  | always => none

namespace Field

variable {f : Field} {name : String} {relation : Option Relation}
  {function : Option FieldFunction} {c : Comparison}

/-- What an accepted comparison knows of the type that it compares. -/
theorem comparedType_of_check
    (h : f.check name relation function (.compare c) = .ok ()) :
    ∃ type, f.comparedType name relation function (.compare c) = .ok type ∧
      (c.isPattern = true → type.isText = true) ∧
      (c.needsOrder = true → type.isOrdered = true) := by
  unfold check at h
  rw [if_neg (by simp [Operator.isQuantified])] at h
  split at h
  · cases h
  · obtain ⟨type, htype, h⟩ := exists_of_bind_ok h
    split_ifs at h with hpattern horder
    refine ⟨type, htype, ?_, ?_⟩
    · intro hc
      simpa [Operator.isPattern, hc] using hpattern
    · intro hc
      simpa [Operator.needsOrder, hc] using horder

/-- Without a function the field holds a value of its own or the key of a related row, and a
document is only asked for its presence. -/
theorem comparedType_none
    {op : Operator} {type : FieldType}
    (h : f.comparedType name relation none op = .ok type) :
    type = f.type ∧ Demand.presence.metBy f relation = true ∧
      (op.asksPresence = false → Demand.equality.metBy f relation = true) := by
  simp only [comparedType] at h
  split_ifs at h with hmany hvirtual hjson
  cases h
  have hpresence : Demand.presence.metBy f relation = true := by
    simp only [Demand.metBy, Bool.and_eq_true, Bool.not_eq_true']
    exact ⟨Bool.eq_false_iff.2 hvirtual, Bool.eq_false_iff.2 hmany⟩
  refine ⟨rfl, hpresence, fun hop => ?_⟩
  have hdocument : f.type.isJson = false := by
    simpa [hop] using hjson
  simp only [Demand.metBy, hdocument] at hpresence ⊢
  simpa using hpresence

/-- A criterion is only put on a column whose field is what it asks for. -/
theorem metBy_of_check
    {operand : Json} {criterion : Criterion} {demand : Demand}
    (h : f.check name relation none (.compare c) = .ok ())
    (hcriterion : c.criterion operand = .ok criterion)
    (hdemand : criterion.demand? = some demand) :
    demand.metBy f relation = true := by
  obtain ⟨type, htype, htext, horder⟩ := comparedType_of_check h
  obtain ⟨rfl, hpresence, hequality⟩ := comparedType_none htype
  cases c with
  | equal negated =>
      simp only [Comparison.criterion] at hcriterion
      split at hcriterion
      · cases hcriterion
        cases hdemand
        exact hpresence
      · cases hcriterion
        cases hdemand
        cases negated <;> exact hequality rfl
  | inequality i =>
      cases hcriterion
      cases hdemand
      cases i <;> exact horder rfl
  | member negated =>
      simp only [Comparison.criterion] at hcriterion
      split at hcriterion
      · cases hcriterion
        cases negated <;> cases hdemand
      · cases hcriterion
        cases hdemand
        exact hequality rfl
  | null negated =>
      cases hcriterion
      cases hdemand
      exact hpresence
  | empty negated =>
      cases hcriterion
      cases hdemand
      exact hpresence
  | between negated =>
      cases hcriterion
      cases hdemand
      exact horder rfl
  | pattern p =>
      simp only [Comparison.criterion] at hcriterion
      split at hcriterion
      · cases hcriterion
        cases hdemand
        exact htext rfl
      · cases hcriterion

/-- A function is only applied to a field of the type that it reads. -/
theorem allowsFunction_of_check
    {applied : FieldFunction}
    (h : f.check name relation (some applied) (.compare c) = .ok ()) :
    f.allowsFunction (relation.any (·.cardinality.leadsToMany)) applied = true := by
  obtain ⟨type, htype, -⟩ := comparedType_of_check h
  simp only [comparedType] at htype
  split at htype
  · assumption
  · cases htype

end Field

/-! ## Points -/

/-- What a criterion asks of what it is put on. -/
theorem Criterion.asked_of_apply
    {criterion : Criterion} {target e : Expr} {asked : Demand × Expr}
    (hplain : target.unlowered = target) (h : criterion.apply target = some e)
    (hasked : e.asked? = some asked) :
    criterion.demand? = some asked.1 ∧ asked.2 = target := by
  cases criterion with
  | compare op v =>
      cases h
      cases hasked
      exact ⟨rfl, hplain⟩
  | like pattern negated caseless =>
      cases h
      cases hasked
      refine ⟨by cases negated <;> rfl, ?_⟩
      cases caseless with
      | true => simp [Expr.unlowered]
      | false => exact hplain
  | never =>
      cases h
      cases hasked
  | always => cases h
  | _ =>
      cases h
      cases hasked
      exact ⟨rfl, rfl⟩

theorem Criterion.measured?_of_apply
    {criterion : Criterion} {target e : Expr}
    (h : criterion.apply target = some e) :
    e.measured? = none := by
  cases criterion with
  | always => cases h
  | _ =>
      cases h
      rfl

/-- A criterion fits what it is put on, if a column there is what it asks for. -/
theorem fitsTypes_of_apply
    {schema : Schema} {segments : List Segment} {ctx : Context} {criterion : Criterion}
    {target e : Expr}
    (hplain : target.unlowered = target)
    (htarget : ∀ column ∈ target.column?, ∀ demand ∈ criterion.demand?,
      Meets schema ctx demand column)
    (h : criterion.apply target = some e) :
    FitsTypes schema segments ctx e := by
  constructor
  · intro asked hasked
    obtain ⟨hdemand, hsame⟩ := Criterion.asked_of_apply hplain h hasked
    rw [hsame]
    exact .inr fun column hcolumn => htarget column hcolumn asked.1 hdemand
  · rw [Criterion.measured?_of_apply h]
    rintro measured ⟨⟩

section Points

variable {g : Ground} {ctx : Context} {labelled : List Source}

/-- A place in sight is declared as it is. -/
theorem Place.In.meets
    {place : Place} {relation : Option Relation} {demand : Demand}
    (h : place.In g labelled) (hsources : ctx.sources = g.sight labelled)
    (hrelation : g.schema.relation? place.collection place.segment.name = relation)
    (hdemand : demand.metBy place.field relation = true) :
    Meets g.schema ctx demand (place.qualifier, place.segment.name) :=
  ⟨_, hsources ▸ h.source, rfl, place.collection, rfl, place.field, h.field, hrelation ▸ hdemand⟩

theorem Place.unlowered_compared
    (place : Place) :
    place.compared.unlowered = place.compared := by
  unfold Place.compared
  split <;> rfl

theorem Link.unlowered_countRows
    (link : Link) (label : String) :
    (link.countRows label).unlowered = link.countRows label := by
  unfold Link.countRows
  split <;> rfl

theorem Link.column?_countRows
    (link : Link) (label : String) :
    (link.countRows label).column? = none := by
  unfold Link.countRows
  split <;> rfl

/-- A comparison fits what it is about. -/
theorem Ground.Subject.fitsTypes
    {c : Comparison} {operand : Json} {criterion : Criterion} {target e : Expr}
    (h : g.Subject labelled c target) (hsources : ctx.sources = g.sight labelled)
    (hcriterion : c.criterion operand = .ok criterion) (he : criterion.apply target = some e) :
    FitsTypes g.schema g.segments ctx e := by
  cases h with
  | @field place relation hplace hcheck hrelation hone =>
      refine fitsTypes_of_apply place.unlowered_compared (fun column hcolumn demand hdemand => ?_) he
      cases hfunction : place.segment.function with
      | none =>
          simp only [Place.compared, hfunction, Place.column, Expr.column, Expr.column?,
            Option.mem_some_iff] at hcolumn
          subst hcolumn
          rw [Place.check, hfunction] at hcheck
          exact hplace.meets hsources hrelation (Field.metBy_of_check hcheck hcriterion hdemand)
      | some function =>
          cases function <;> simp [Place.compared, hfunction, Expr.column?] at hcolumn
  | @count link label _ _ _ =>
      refine fitsTypes_of_apply (link.unlowered_countRows label) ?_ he
      rw [Link.column?_countRows]
      rintro column ⟨⟩

/-- A function fits the field that it is applied to. -/
theorem Place.fitsTypes_compared
    {c : Comparison} {place : Place} {relation : Option Relation}
    (hplace : place.In g labelled) (hsources : ctx.sources = g.sight labelled)
    (hcheck : place.check relation (.compare c) = .ok ())
    (hone : ∀ r ∈ relation, r.cardinality.leadsToMany = false)
    (hfunction : place.segment.function ≠ none) :
    FitsTypes g.schema g.segments ctx place.compared := by
  obtain ⟨function, hfunction⟩ := Option.ne_none_iff_exists'.1 hfunction
  rw [Place.check, hfunction] at hcheck
  have hallowed := Field.allowsFunction_of_check hcheck
  have hmany : relation.any (·.cardinality.leadsToMany) = false := by
    cases relation with
    | none => rfl
    | some r => exact hone r rfl
  cases function with
  | count =>
      have hjson : place.field.type.isJson = true := by
        simpa [Field.allowsFunction, hmany] using hallowed
      simp only [Place.compared, hfunction]
      refine ⟨by rintro asked ⟨⟩, ?_⟩
      rintro measured ⟨⟩
      exact ⟨_, rfl, hplace.meets hsources rfl hjson⟩
  | extract part =>
      simp only [Place.compared, hfunction]
      refine ⟨by rintro asked ⟨⟩, ?_⟩
      rintro measured ⟨⟩
      refine ⟨_, rfl, hplace.meets hsources rfl ?_⟩
      -- the check asks for a time of the parts that demand one
      cases part <;> exact hallowed

/-- What connects row sources is the equality of a key. -/
theorem Ground.Keyed.fromRelation
    {e : Expr}
    (h : g.Keyed labelled e) (hsources : ctx.sources = g.sight labelled) :
    FromRelation g.schema g.segments ctx e := by
  have hlabelled {source : Source} (hsource : source ∈ labelled) : source ∈ ctx.sources :=
    hsources ▸ List.mem_cons_of_mem _ hsource
  cases h with
  | held hsource hprimary hparent =>
      obtain ⟨collection, r, hparent, -, hrelation, hone, hrelated⟩ := hparent
      exact .inl ⟨_, rfl, .inl ⟨_, hlabelled hsource, rfl, _, rfl,
        Schema.primaryKey_eq_ok_iff.1 hprimary, _, hsources ▸ hparent, rfl, _, rfl, r, hrelation,
        Cardinality.leadsToMany_eq_false_iff.1 hone, hrelated⟩⟩
  | pointing hsource hparent hprimary hr hleads hfield =>
      exact .inl ⟨_, rfl, .inr ⟨_, hlabelled hsource, rfl, _, rfl, _, hsources ▸ hparent, rfl, _,
        rfl, Schema.primaryKey_eq_ok_iff.1 hprimary, _, hr, rfl, hleads, hfield⟩⟩

theorem Ground.Point.fitsTypes
    {e : Expr}
    (h : g.Point ctx e) :
    FitsTypes g.schema g.segments ctx e := by
  obtain ⟨labelled, hsources, -, hnode⟩ := h
  cases hnode with
  | reference _ => exact ⟨by rintro _ ⟨⟩, by rintro _ ⟨⟩⟩
  | row _ _ => exact ⟨by rintro _ ⟨⟩, by rintro _ ⟨⟩⟩
  | test htarget hcriterion he => exact htarget.fitsTypes hsources hcriterion he
  | rowTest _ _ he =>
      obtain ⟨_, _, _, _, _, he⟩ := he
      exact fitsTypes_of_apply rfl (by rintro column ⟨⟩) he
  | measured hplace hcheck hone hfunction =>
      exact Place.fitsTypes_compared hplace hsources hcheck hone hfunction
  | linked hkeyed =>
      have hfrom := hkeyed.fromRelation hsources
      refine ⟨fun _ _ => .inl hfrom, ?_⟩
      cases hkeyed <;> rintro _ ⟨⟩
  | @discriminated label collection d r hsource hr hleads hfield hcollection =>
      have hnames : NamesCollection g.schema g.segments ctx (Link.discriminates label d) :=
        ⟨(label, d), rfl, ⟨label, some collection⟩, hsources ▸ List.mem_cons_of_mem _ hsource, rfl,
          collection, rfl, r, hr, hleads, hfield, hcollection⟩
      exact ⟨fun _ _ => .inl (.inr hnames), by rintro _ ⟨⟩⟩
  | neutral he =>
      constructor
      · intro asked hasked
        cases e <;> cases hasked <;> cases he
      · intro measured hmeasured
        cases e <;> cases hmeasured <;> cases he

end Points

/-- **Operators fit the declared types.**  In a compiled filter, in its joins, in the
condition and in the queries inside it, every operator that is put on a column goes with a
field that a collection in sight declares for it, unless the equality is one of the keys by
which a relation connects rows, or of the collection that they name. -/
theorem compile_fits_types
    {s : Setting} {collection : String} {filter : Json} {c : Compiled}
    (h : s.compile collection filter = .ok c) :
    ∃ tree, Filter.ofJson s.options.maxDepth filter = .ok tree ∧
      Join.AllEverywhere (FitsTypes s.schema tree.segments) [⟨collection, some collection⟩]
        c.joins ∧
      Expr.EverywhereIfAny (FitsTypes s.schema tree.segments)
        ⟨⟨collection, some collection⟩ :: c.joins.map Join.source, none⟩ c.condition := by
  obtain ⟨tree, htree, -, hholds⟩ := everywhere_of_compile h
  exact ⟨tree, htree, hholds _ fun _ _ => Ground.Point.fitsTypes⟩

theorem compile_fits_types_busyProjects :
    ∃ c tree, studio.compile "projects" busyProjects = .ok c ∧
      Filter.ofJson studio.options.maxDepth busyProjects = .ok tree ∧
      Expr.EverywhereIfAny (FitsTypes studio.schema tree.segments)
        ⟨⟨"projects", some "projects"⟩ :: c.joins.map Join.source, none⟩ c.condition := by
  obtain ⟨c, hc⟩ := exists_of_isOk
    (show (studio.compile "projects" busyProjects).isOk = true by decide +kernel)
  obtain ⟨tree, htree, -, hcondition⟩ := compile_fits_types hc
  exact ⟨c, tree, hc, htree, hcondition⟩

/-- A pattern does not fit a number. -/
example :
    ¬ FitsTypes studio.schema [] ⟨[⟨"projects", some "projects"⟩], none⟩
      (.binary (.column "projects" "lead") .like (.value (.str "Ada"))) := by
  decide

end RowFilter
