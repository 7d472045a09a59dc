import RowFilter.Compilation.Condition
import RowFilter.Proofs.Attempts

/-!
# Conditions taken apart

A condition either is met by what stands at its place, or asks whether a key is
among the rows of a query of its own.  The second kind is cut here into what is
found out before the query (a probe), the query without its condition (an
inquiry), and the condition built inside it.

* `comparisonCondition_eq`, `quantifiedCondition_eq`: the conditions of
  comparisons and quantifiers in this form.  A proof about them needs one rule
  for `arrivalCondition` and one for `Probe.enter`.
-/

namespace RowFilter

open Sql (Expr Select)

/-- The collection that a relation leads to, with the one chosen for it. -/
def Relation.target (relation : Relation) : Option String → Except QueryError String
  | some collection => .ok collection
  | none => relation.related

/-- What the link of a relation is made of. -/
structure Link.Made (schema : Schema) (place : Place) (relation : Relation)
    (scope : Option String) (link : Link) : Prop where
  related : relation.target scope = .ok link.related
  relatedField : relation.relatedField = some link.relatedField
  discriminator : link.discriminator =
    scope.bind fun _ => relation.collectionField.map (·, place.collection)
  parentKey : ∃ primary, schema.primaryKey place.collection = .ok primary ∧
    link.parentKey = .column place.qualifier primary

theorem Link.made_of_ok
    {schema : Schema} {place : Place} {relation : Relation} {scope : Option String} {link : Link}
    (h : Link.of schema place relation scope = .ok link) :
    Link.Made schema place relation scope link := by
  cases hfield : relation.relatedField with
  | none =>
      cases scope with
      | none =>
          simp only [Link.of, hfield] at h
          obtain ⟨_, _, h⟩ := exists_of_bind_ok h
          cases h
      | some collection =>
          simp only [Link.of, hfield] at h
          cases h
  | some field =>
      cases scope with
      | none =>
          simp only [Link.of, hfield] at h
          obtain ⟨related, hrelated, h⟩ := exists_of_bind_ok h
          change (schema.primaryKey place.collection >>= _) = _ at h
          obtain ⟨primary, hprimary, h⟩ := exists_of_bind_ok h
          cases h
          exact ⟨hrelated, hfield, rfl, primary, hprimary, rfl⟩
      | some collection =>
          cases hcollection : relation.collectionField with
          | none =>
              simp only [Link.of, hfield, hcollection] at h
              cases h
          | some collectionField =>
              simp only [Link.of, hfield, hcollection] at h
              change (schema.primaryKey place.collection >>= _) = _ at h
              obtain ⟨primary, hprimary, h⟩ := exists_of_bind_ok h
              cases h
              exact ⟨rfl, hfield, by simp [hcollection], primary, hprimary, rfl⟩

/-- What is known before a query is opened: the key that is looked up, and where. -/
structure Probe where
  key : Expr
  /-- The collection of the rows. -/
  related : String
  /-- The field of the rows that holds the key. -/
  column : String
  discriminator : Option (String × String)

/-- A query whose condition is still open. -/
structure Inquiry where
  /-- The rows, with the joins that their condition relies on. -/
  rows : Select
  /-- What holds of the rows besides their condition. -/
  discriminator : Option Expr

namespace Inquiry

/-- The rows that meet a condition. -/
def meeting (q : Inquiry) (condition : Option Expr) : Select :=
  q.rows.filter (Expr.group? .and (condition.toList ++ q.discriminator.toList))

/-- A key is, or is not, among the rows that meet a condition. -/
def predicate (q : Inquiry) (key : Expr) (negated : Bool) (condition : Option Expr) : Expr :=
  .inQuery key (q.meeting condition) negated

end Inquiry

/-- The probe of a link. -/
def Link.probe (link : Link) : Probe where
  key := link.parentKey
  related := link.related
  column := link.relatedField
  discriminator := link.discriminator

/-- A step inside the query of a probe: its result, and the query. -/
def Probe.enter {α : Type} (schema : Schema) (probe : Probe) (step : Compiling α) :
    Compiling (α × Inquiry) := do
  let _ ← Attempt.ofExcept (schema.primaryKey probe.related)
  let label ← Compiling.freshLabel probe.related
  let (a, joins) ← Compiling.inQuery probe.related label step
  return (a, {
    rows := (Select.of [.column label probe.column]
      (.table { name := probe.related } (some label))).join joins
    discriminator := probe.discriminator.map (Link.discriminates label) })

/-- The condition of a comparison that needs no query for a rest of its path. -/
def arrivalCondition (schema : Schema) (id : Nat) (c : Comparison) (operand : Json) :
    Destination → Compiling (Option Expr)
  | .column place relation => Attempt.ofExcept (place.condition relation c operand)
  | .json place [] => Attempt.ofExcept (place.condition none c operand)
  | .json place (s :: rest) => do
      Attempt.ofExcept (checkJsonPath place.segment.name (s :: rest) (.compare c))
      Compiling.label (place.documentTest id (s :: rest) c operand).alone
  | .toMany place relation scope _ => do
      let link ← Attempt.ofExcept (Link.of schema place relation scope)
      link.countCondition schema place relation c operand

/-- What a quantifier on a field looks up. -/
def quantifierProbe (schema : Schema) (field : Segment) (q : Quantifier) : Compiling Probe := do
  match ← Compiling.locate schema [field] with
  | .toMany place relation scope _ =>
      let link ← Attempt.ofExcept (Link.of schema place relation scope)
      Attempt.ofExcept (place.check (some relation) (.quantify q))
      return link.probe
  | destination =>
      let place := destination.place
      Attempt.ofExcept (place.check destination.relation? (.quantify q))
      match destination.relation? with
      | none => .fail (.noRelation place.segment.name)
      | some relation =>
          let related ← Attempt.ofExcept relation.related
          let primary ← Attempt.ofExcept (schema.primaryKey related)
          return ⟨place.column, related, primary, none⟩

theorem run_inQuery
    {α : Type}
    (collection qualifier : String) (step : Compiling α) (p : Progress) :
    (Compiling.inQuery collection qualifier step).run p =
      ((step.run (p.inside collection qualifier)).1.map fun a =>
          (a, (step.run (p.inside collection qualifier)).2.plan.joins),
        { (step.run (p.inside collection qualifier)).2 with plan := p.plan }) :=
  rfl

theorem selectColumn_eq
    (schema : Schema) (probe : Probe) (step : Compiling (Option Expr)) :
    selectColumn schema probe.related probe.column probe.discriminator step = do
      let (condition, inquiry) ← probe.enter schema step
      return inquiry.meeting condition := by
  simp only [selectColumn, Probe.enter, bind_assoc, pure_bind]
  rfl

/-- A comparison either arrives, or asks for a row from which the rest of its
path arrives. -/
theorem comparisonCondition_eq
    (schema : Schema) (id : Nat) (c : Comparison) (operand : Json) (limit : Nat)
    (path : List Segment) :
    comparisonCondition schema id c operand (limit + 1) path = (do
      match ← Compiling.locate schema path with
      | .toMany place relation scope (s :: rest) =>
          let link ← Attempt.ofExcept (Link.of schema place relation scope)
          let (condition, inquiry) ← link.probe.enter schema do
            let _ ← Compiling.locate schema (s :: rest)
            comparisonCondition schema id c operand limit (s :: rest)
          return some (inquiry.predicate link.parentKey false condition)
      | destination => arrivalCondition schema id c operand destination) := by
  rw [comparisonCondition]
  refine bind_congr fun destination => ?_
  cases destination with
  | column place relation =>
      rfl
  | json place rest =>
      cases rest <;> rfl
  | toMany place relation scope rest =>
      cases rest with
      | nil =>
          rfl
      | cons s rest =>
          refine bind_congr fun link => ?_
          have hselect := selectColumn_eq schema link.probe do
            let _ ← Compiling.locate schema (s :: rest)
            comparisonCondition schema id c operand limit (s :: rest)
          simp only [Link.select]
          change (selectColumn schema link.probe.related link.probe.column
            link.probe.discriminator _ >>= _) = _
          rw [hselect]
          simp only [bind_assoc, pure_bind]
          rfl

theorem quantifiedCondition_eq
    (schema : Schema) (field : Segment) (q : Quantifier) (step : Compiling (Option Expr)) :
    quantifiedCondition schema field q step = do
      let probe ← quantifierProbe schema field q
      let (condition, inquiry) ← probe.enter schema step
      return some (inquiry.predicate probe.key (q == .none) condition) := by
  simp only [quantifiedCondition, quantifierProbe, bind_assoc]
  refine bind_congr fun destination => ?_
  have hask (probe : Probe) :
      (selectColumn schema probe.related probe.column probe.discriminator step >>=
        fun rows => (return some (.inQuery probe.key rows (q == .none)) : Compiling _)) = (do
          let (condition, inquiry) ← probe.enter schema step
          return some (inquiry.predicate probe.key (q == .none) condition)) := by
    rw [selectColumn_eq, bind_assoc]
    rfl
  cases destination with
  | toMany place relation scope rest =>
      simp only [bind_assoc, pure_bind, Link.select]
      refine bind_congr fun link => ?_
      refine bind_congr fun _ => ?_
      exact hask link.probe
  | json place rest =>
      simp only [bind_assoc]
      rfl
  | column place relation =>
      simp only [bind_assoc]
      refine bind_congr fun _ => ?_
      cases relation with
      | none =>
          rfl
      | some relation =>
          simp only [Destination.relation?, bind_assoc, pure_bind]
          refine bind_congr fun related => ?_
          refine bind_congr fun primary => ?_
          exact hask ⟨_, related, primary, none⟩

end RowFilter
