import RowFilter.Attempt
import RowFilter.Destination
import RowFilter.Labels

/-!
# Join plans

Every relation to one row that a path crosses becomes a left join, planned once
for each way of reaching it.  Joins planned before a path turns out to lead
nowhere stay planned.
-/

namespace RowFilter

open Sql (Join)

/-- The joins of one query. -/
structure JoinPlan where
  /-- The collection that paths start from. -/
  collection : String
  /-- The row source of that collection. -/
  qualifier : String
  /-- The row source behind each path that was joined, by the path's text. -/
  sources : List (String × String) := []
  /-- The joins, in the order in which they were planned. -/
  joins : List Join := []

/-- A plan together with the labels given out. -/
structure Planning where
  labels : Labels
  plan : JoinPlan

/-- The row source behind a relation. -/
structure Connection where
  /-- The join was not planned before. -/
  isNew : Bool
  /-- The relation can lead to more than one row. -/
  toMany : Bool
  label : String

namespace JoinPlan

/-- The plan of a query that has no joins yet. -/
def start (collection qualifier : String) : JoinPlan :=
  ⟨collection, qualifier, [], []⟩

/-- The text by which a path is recognised. -/
def pathText (path : List Segment) : String :=
  ".".intercalate (path.map Segment.stepName)

/-- The left join of a collection to the row source that holds its key. -/
def joinOf (related label primary parent field : String) : Join where
  table := { name := related }
  label := some label
  condition := .binary (.column label primary) .eq (.column parent field)

/-- Adds a join for a path. -/
def add (plan : JoinPlan) (path : List Segment) (label : String) (join : Join) : JoinPlan :=
  { plan with
    sources := plan.sources ++ [(pathText path, label)]
    joins := plan.joins ++ [join] }

/-- Connects the relation at the end of `path` to the row source `parent`: by the
join planned for the path, or by a new one. -/
def connect (schema : Schema) (path : List Segment) (parent : String) (relation : Relation) :
    Attempt Planning Connection := do
  let toMany := relation.cardinality.leadsToMany
  match (← Attempt.state).plan.sources.lookup (pathText path) with
  | some label => return ⟨false, toMany, label⟩
  | none =>
      let related ← Attempt.ofExcept relation.related
      match schema.collection? related with
      | none => .fail (.unknownRelatedCollection related)
      | some collection =>
          Attempt.ofState fun s =>
            let (label, labels) := s.labels.fresh related
            (⟨true, toMany, label⟩,
              ⟨labels, s.plan.add path label
                (joinOf related label collection.primary parent relation.field)⟩)

/-- Follows a path on from a collection in a row source, after the segments
`before`. -/
def follow (schema : Schema) (before : List Segment) (qualifier collection : String) :
    List Segment → Attempt Planning Destination
  | [] => .fail .emptyPath
  | segment :: rest => do
      match ← Attempt.ofExcept (schema.step qualifier collection segment rest) with
      | .arrive destination => return destination
      | .cross relation =>
          let path := before ++ [segment]
          let connection ← connect schema path qualifier relation
          let related ← Attempt.ofExcept relation.related
          follow schema path connection.label related rest

/-- Follows a path from the collection of the plan. -/
def locate (schema : Schema) (path : List Segment) : Attempt Planning Destination := do
  let plan := (← Attempt.state).plan
  follow schema [] plan.qualifier plan.collection path

end JoinPlan
end RowFilter
