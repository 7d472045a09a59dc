import RowFilter.Sql.Expr

/-!
# Segments of field paths

A path names fields one after the other.  A segment is one field of it, possibly
with the collection chosen for a relation to many collections, a position in an
array, or a function applied to the field.
-/

namespace RowFilter

open Sql (DatePart)

/-- The names of date parts in field functions. -/
def Sql.DatePart.word : DatePart → String
  | .year => "year"
  | .month => "month"
  | .week => "week"
  | .day => "day"
  | .weekday => "weekday"
  | .hour => "hour"
  | .minute => "minute"
  | .second => "second"

/-- All date parts. -/
def Sql.DatePart.all : List DatePart :=
  [.year, .month, .week, .day, .weekday, .hour, .minute, .second]

/-- A function applied to a field. -/
inductive FieldFunction where
  /-- A component of a date or a time. -/
  | extract (part : DatePart)
  /-- The number of related rows, or of items of a JSON array. -/
  | count
deriving DecidableEq

namespace FieldFunction

/-- All functions. -/
def all : List FieldFunction :=
  DatePart.all.map extract ++ [count]

def name : FieldFunction → String
  | extract part => part.word
  | count => "count"

/-- The function with a given name. -/
def ofName? (name : String) : Option FieldFunction :=
  all.find? (·.name == name)

/-- The component that the function takes, none for `count`. -/
def part? : FieldFunction → Option DatePart
  | extract part => some part
  | count => none

/-- The function reads the time of day. -/
def readsTime : FieldFunction → Bool
  | extract .hour => true
  | extract .minute => true
  | extract .second => true
  | _ => false

/-- Every function is found by its name. -/
theorem ofName?_name
    (f : FieldFunction) :
    ofName? f.name = some f := by
  cases f with
  | extract part => cases part <;> decide +kernel
  | count => decide +kernel

end FieldFunction

/-- One field of a path. -/
structure Segment where
  name : String
  /-- The collection chosen for a relation to many collections. -/
  scope : Option String := none
  function : Option FieldFunction := none
  /-- A position in an array of a JSON document. -/
  index : Option Nat := none
deriving DecidableEq

namespace Segment

/-- The segment's field with its scope, by which the same step is recognised. -/
def stepName (s : Segment) : String :=
  match s.scope with
  | some scope => s.name ++ ":" ++ scope
  | none => s.name

end Segment
end RowFilter
