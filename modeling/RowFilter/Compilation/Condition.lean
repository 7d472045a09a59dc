import RowFilter.Compilation.Progress
import RowFilter.Validity

/-!
# Conditions of comparisons and quantifiers

A comparison at the end of a path becomes a condition on a column, on the number
of related rows, or on a value inside a JSON document.  A path that leads through
a relation to many rows asks whether one of those rows meets the rest of it.
-/

namespace RowFilter

open Sql (Expr Select)

/-- The primary key of a collection. -/
def Schema.primaryKey (schema : Schema) (collection : String) : Except QueryError String :=
  match schema.collection? collection with
  | some c => .ok c.primary
  | none => .error (.unknownCollection collection)

namespace Place

/-- The column of the field. -/
def column (p : Place) : Expr :=
  .column p.qualifier p.segment.name

/-- The expression that is compared: the column, or the function applied to it. -/
def compared (p : Place) : Expr :=
  match p.segment.function with
  | none => p.column
  | some .count => .jsonLength p.column
  | some (.extract part) => .datePart part p.column

/-- Checks an operator on the field. -/
def check (p : Place) (relation : Option Relation) (op : Operator) : Except QueryError Unit :=
  p.field.check p.segment.name relation p.segment.function op

/-- The condition that a comparison puts on the field. -/
def condition (p : Place) (relation : Option Relation) (c : Comparison) (operand : Json) :
    Except QueryError (Option Expr) := do
  p.check relation (.compare c)
  return (← c.criterion operand).apply p.compared

/-- The test that a comparison makes inside the document of the field. -/
def documentTest (p : Place) (id : Nat) (path : List Segment) (c : Comparison)
    (operand : Json) : DocumentTest where
  id := id
  qualifier := p.qualifier
  collection := p.collection
  field := p.segment.name
  path := path
  operator := .compare c
  operand := operand

end Place

/-- How the rows behind a relation to many rows are found. -/
structure Link where
  /-- The collection of the rows. -/
  related : String
  /-- The field by which they point back. -/
  relatedField : String
  /-- The field in which they name the collection they point to, and that
  collection. -/
  discriminator : Option (String × String)
  /-- The key to which they point. -/
  parentKey : Expr

namespace Link

/-- The link of a relation on a field, with the collection chosen for it. -/
def of (schema : Schema) (place : Place) (relation : Relation) (scope : Option String) :
    Except QueryError Link := do
  let related ←
    match scope with
    | some collection => .ok collection
    | none => relation.related
  let relatedField ←
    match relation.relatedField with
    | some field => .ok field
    | none => .error (.noRelatedField place.segment.name)
  let discriminator ←
    match scope with
    | none => .ok none
    | some _ =>
        match relation.collectionField with
        | some field => .ok (some (field, place.collection))
        | none => .error (.noCollectionField place.segment.name)
  let primary ← schema.primaryKey place.collection
  return ⟨related, relatedField, discriminator, .column place.qualifier primary⟩

/-- A row names the collection that it points to. -/
def discriminates (label : String) (discriminator : String × String) : Expr :=
  .binary (.column label discriminator.1) .eq (.value (.str discriminator.2))

/-- The number of rows behind the link, which go by `label`. -/
def countRows (link : Link) (label : String) : Expr :=
  let rows := (Select.of [.call "COUNT" [] true]
    (.table { name := link.related } (some label))).and
      (.binary (.column label link.relatedField) .eq link.parentKey)
  match link.discriminator with
  | some d => .scalar (rows.and (discriminates label d))
  | none => .scalar rows

/-- The condition that a comparison puts on the number of rows behind the link. -/
def countCondition (link : Link) (schema : Schema) (place : Place) (relation : Relation)
    (c : Comparison) (operand : Json) : Compiling (Option Expr) := do
  Attempt.ofExcept (place.check (some relation) (.compare c))
  let _ ← Attempt.ofExcept (schema.primaryKey link.related)
  let label ← Compiling.freshLabel link.related
  let criterion ← Attempt.ofExcept (c.criterion operand)
  return criterion.apply (link.countRows label)

end Link

/-- The values of `column` in the rows of a collection that meet the condition of
`step`, which is built in a query of its own. -/
def selectColumn (schema : Schema) (related column : String)
    (discriminator : Option (String × String)) (step : Compiling (Option Expr)) :
    Compiling Select := do
  let _ ← Attempt.ofExcept (schema.primaryKey related)
  let label ← Compiling.freshLabel related
  let (condition, joins) ← Compiling.inQuery related label step
  let conditions :=
    condition.toList ++ (discriminator.map (Link.discriminates label)).toList
  return ((Select.of [.column label column] (.table { name := related } (some label))).join
    joins).filter (Expr.group? .and conditions)

/-- The rows behind a link that meet the condition of `step`. -/
def Link.select (link : Link) (schema : Schema) (step : Compiling (Option Expr)) :
    Compiling Select :=
  selectColumn schema link.related link.relatedField link.discriminator step

/-- The condition of a comparison at the end of a path of at most `limit`
segments. -/
def comparisonCondition (schema : Schema) (id : Nat) (c : Comparison) (operand : Json) :
    Nat → List Segment → Compiling (Option Expr)
  | 0, _ => .fail .emptyPath
  | limit + 1, path => do
      match ← Compiling.locate schema path with
      | .column place relation => Attempt.ofExcept (place.condition relation c operand)
      | .json place [] => Attempt.ofExcept (place.condition none c operand)
      | .json place rest =>
          Attempt.ofExcept (checkJsonPath place.segment.name rest (.compare c))
          Compiling.label (place.documentTest id rest c operand).alone
      | .toMany place relation scope rest =>
          let link ← Attempt.ofExcept (Link.of schema place relation scope)
          if rest.isEmpty then
            link.countCondition schema place relation c operand
          else
            let rows ← link.select schema do
              let _ ← Compiling.locate schema rest
              comparisonCondition schema id c operand limit rest
            return some (.inQuery link.parentKey rows false)

/-- The condition that some or none of the rows behind a field meet the condition
of `step`, which is built in a query of its own. -/
def quantifiedCondition (schema : Schema) (field : Segment) (q : Quantifier)
    (step : Compiling (Option Expr)) : Compiling (Option Expr) := do
  let negated := q == .none
  match ← Compiling.locate schema [field] with
  | .toMany place relation scope _ =>
      let link ← Attempt.ofExcept (Link.of schema place relation scope)
      Attempt.ofExcept (place.check (some relation) (.quantify q))
      let rows ← link.select schema step
      return some (.inQuery link.parentKey rows negated)
  | destination =>
      let place := destination.place
      Attempt.ofExcept (place.check destination.relation? (.quantify q))
      match destination.relation? with
      | none => .fail (.noRelation place.segment.name)
      | some relation =>
          let related ← Attempt.ofExcept relation.related
          let primary ← Attempt.ofExcept (schema.primaryKey related)
          let rows ← selectColumn schema related primary none step
          return some (.inQuery place.column rows negated)

end RowFilter
