import RowFilter.QueryError
import RowFilter.Schema.Basic

/-!
# Where field paths lead

A path is followed through the schema one segment at a time.  A segment either
ends the path, at a column, at a relation to many rows or at a JSON field, or
crosses a relation to one row, behind which the path goes on.  Relations to many
rows and JSON fields leave the rest of the path for later.
-/

namespace RowFilter

/-- A field reached by a path, in its row source. -/
structure Place where
  qualifier : String
  collection : String
  segment : Segment
  field : Field

/-- Where a path ends. -/
inductive Destination where
  /-- At a column, which may hold the key of a related row. -/
  | column (place : Place) (relation : Option Relation)
  /-- At a relation to many rows, with the collection chosen for it if it leads
  to any collection; the rest of the path starts from those rows. -/
  | toMany (place : Place) (relation : Relation) (scope : Option String) (rest : List Segment)
  /-- At a JSON field; the rest of the path leads into the document. -/
  | json (place : Place) (rest : List Segment)

namespace Destination

/-- The field at which the path ends. -/
def place : Destination → Place
  | column place _ => place
  | toMany place _ _ _ => place
  | json place _ => place

/-- The relation on that field. -/
def relation? : Destination → Option Relation
  | column _ relation => relation
  | toMany _ relation _ _ => some relation
  | json _ _ => none

end Destination

/-- What one segment of a path does. -/
inductive Step where
  /-- The path ends. -/
  | arrive (destination : Destination)
  /-- The path goes on behind a relation to one row. -/
  | cross (relation : Relation)

/-- The collection that a relation leads to. -/
def Relation.related (r : Relation) : Except QueryError String :=
  match r.relatedCollection with
  | some collection => .ok collection
  | none => .error (.noRelatedCollection r.collection r.field)

/-- The collection chosen by a segment for a relation: one that leads to any
collection needs a choice that it allows, and no other takes one. -/
def Segment.choose (s : Segment) (r : Relation) : Except QueryError (Option String) :=
  match r.cardinality, s.scope with
  | .anyToMany, none => .error (.scopeMissing s.name)
  | .anyToMany, some scope =>
      if r.allowed.isEmpty || r.allowed.contains scope then
        .ok (some scope)
      else
        .error (.scopeNotAllowed scope s.name)
  | _, some _ => .error (.scopeUnexpected s.name)
  | _, none => .ok none

namespace Place

/-- The end of a path at a field without a relation. -/
def arrive (place : Place) (rest : List Segment) : Except QueryError Destination :=
  let segment := place.segment
  if place.field.type.isJson then
    if segment.scope.isSome || segment.index.isSome then
      .error (.malformedJsonReference segment.name)
    else
      .ok (.json place rest)
  else if segment.index.isSome then
    .error (.indexOutsideJson segment.name)
  else if segment.scope.isSome then
    .error (.scopeUnexpected segment.name)
  else if rest.isEmpty then
    .ok (.column place none)
  else
    .error (.notRelation segment.name place.collection)

/-- The step at a field with a relation. -/
def relate (place : Place) (relation : Relation) (rest : List Segment) :
    Except QueryError Step :=
  if place.segment.index.isSome then
    .error (.indexOutsideJson place.segment.name)
  else do
    let scope ← place.segment.choose relation
    if relation.cardinality.leadsToMany then
      return .arrive (.toMany place relation scope rest)
    else if rest.isEmpty then
      return .arrive (.column place (some relation))
    else
      return .cross relation

end Place

/-- The step that a segment takes from a collection in a row source, with the
rest of the path behind it. -/
def Schema.step (schema : Schema) (qualifier collection : String) (segment : Segment)
    (rest : List Segment) : Except QueryError Step :=
  match schema.field? collection segment.name with
  | none => .error (.unknownField segment.name collection)
  | some field =>
      let place : Place := ⟨qualifier, collection, segment, field⟩
      match schema.relation? collection segment.name with
      | none => (place.arrive rest).map Step.arrive
      | some relation => place.relate relation rest

end RowFilter
