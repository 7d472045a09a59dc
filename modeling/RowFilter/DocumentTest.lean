import RowFilter.Attempt
import RowFilter.Criterion
import RowFilter.JsonPath
import RowFilter.Labels

/-!
# Tests of values inside JSON documents

A test compares a value inside the document of a JSON field.  It becomes the
question whether one of the matches of its path meets the criterion.  Tests that
read members of the same elements can be made together, on one and the same
element.
-/

namespace RowFilter

open Sql (Expr PathArg Select)

/-- A test of a value inside a JSON document. -/
structure DocumentTest where
  /-- The number of the condition that it comes from. -/
  id : Nat
  /-- The row source of the JSON column. -/
  qualifier : String
  collection : String
  field : String
  /-- The path inside the document. -/
  path : List Segment
  operator : Operator
  operand : Json

namespace DocumentTest

/-- The path ends in a member, which can be read off a shared element. -/
def endsInMember (t : DocumentTest) : Bool :=
  t.path.getLast?.any (·.index.isNone)

/-- The path to the elements that hold the last member. -/
def elementPath (t : DocumentTest) : String :=
  JsonPath.text t.path.dropLast true

/-- The JSON column. -/
def column (t : DocumentTest) : Expr :=
  .column t.qualifier t.field

/-- A match of a path in a document meets a condition. -/
def existsMatch (document : Expr) (path : PathArg) (label : String) (condition : Expr) : Expr :=
  .existsRow
    ((Select.of [.raw "1"] (.jsonRows document path (some label))).filter (some condition))

/-- What a criterion asks of a JSON row, or of its member `key`. -/
def condition? (label : String) (key : Option String) (c : Criterion) : Option Expr :=
  c.casted.apply (.cast (.jsonValue label key) c.castType)

/-- The condition of a test on its own; none if it asks nothing. -/
def alone (t : DocumentTest) : Attempt Labels (Option Expr) := do
  let criterion ← Attempt.ofExcept (t.operator.criterion t.operand)
  if criterion.isAlways then
    return none
  else
    let rows ← Attempt.ofState (Labels.ofField t.collection t.field)
    return (condition? rows.label none criterion).map
      (existsMatch t.column (.bound (JsonPath.text t.path false)) rows.label)

/-- The members that tests read with the criteria on them, in order; tests that
ask nothing are left out. -/
def criteria : List DocumentTest → Except QueryError (List (String × Criterion))
  | [] => .ok []
  | t :: tests => do
      match t.path.getLast? with
      | none => .error (.emptyJsonPath t.field)
      | some key =>
          let criterion ← t.operator.criterion t.operand
          let others ← criteria tests
          return if criterion.isAlways then others else (key.name, criterion) :: others

/-- The condition of tests that one element must pass; none if they ask
nothing.  The first test says which column and which elements are meant. -/
def together : List DocumentTest → Attempt Labels (Option Expr)
  | [] => .fail .emptyGroup
  | first :: others => do
      let asked ← Attempt.ofExcept (criteria (first :: others))
      if asked.isEmpty then
        return none
      else
        let rows ← Attempt.ofState
          (Labels.ofElements first.collection first.field first.elementPath)
        let conditions := asked.filterMap fun (key, criterion) =>
          condition? rows.label (some key) criterion
        return (Expr.group? .and conditions).map
          (existsMatch first.column (.inline first.elementPath) rows.label)

end DocumentTest
end RowFilter
