import RowFilter.FieldPath.Segment
import RowFilter.Json.Basic
import RowFilter.Operator

/-!
# Filters

A filter is a tree of conditions under conjunctions and disjunctions.  Each
condition has a number of its own.  A quantified condition holds a filter for
the rows of a related collection.
-/

namespace RowFilter

/-- A filter on the rows of a collection. -/
inductive Filter where
  | and (children : List Filter)
  | or (children : List Filter)
  /-- The field at the end of a path compares with an operand. -/
  | compare (id : Nat) (path : List Segment) (c : Comparison) (operand : Json)
  /-- Some or none of the rows behind a field match a filter. -/
  | quantify (id : Nat) (field : Segment) (q : Quantifier) (inner : Filter)

namespace Filter

/-- The filter that every row matches. -/
def matchAll : Filter :=
  .and []

/-- The filter is the empty one. -/
def isMatchAll : Filter → Bool
  | .and [] => true
  | _ => false

/-- The filters as one: a single one stands for itself. -/
def conjunction : List Filter → Filter
  | [child] => child
  | children => .and children

end Filter
end RowFilter
