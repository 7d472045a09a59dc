import RowFilter.Compilation.Siblings
import RowFilter.Filter.Reader

/-!
# Compiling filters

A filter on a collection becomes one condition and the joins it relies on.
First every path of the filter is followed, so that all joins are planned before
any condition is built; then the conditions are built from the tree.

* A disjunction with an alternative that every row matches asks nothing.
* The filter of a quantified condition is compiled in a query of its own.
-/

namespace RowFilter

open Sql (Clause Expr Join Select)

/-- What a compilation is made for. -/
structure Setting where
  schema : Schema
  options : Options

mutual

/-- Plans the joins of a filter.  A disjunction with an empty alternative needs
none, unless the filter decides a permission. -/
def planJoins (s : Setting) : Filter → Compiling Unit
  | .and children => planAllJoins s children
  | .or children =>
      if children.any Filter.isMatchAll &&
          !(s.options.permissionCase && children.length > 1) then
        return ()
      else
        planAllJoins s children
  | .compare _ path _ _ => do
      let _ ← Compiling.locate s.schema path
  | .quantify _ field _ _ => do
      let _ ← Compiling.locate s.schema [field]

/-- Plans the joins of several filters. -/
def planAllJoins (s : Setting) : List Filter → Compiling Unit
  | [] => return ()
  | child :: rest => do
      planJoins s child
      planAllJoins s rest

end

mutual

/-- The condition of a filter; none if every row matches. -/
def filterCondition (s : Setting) : Filter → Compiling (Option Expr)
  | .and children => do
      foldSiblings s.schema children
      return Expr.group? .and (← allConditions s children)
  | .or children =>
      if children.any Filter.isMatchAll then
        return none
      else do
        return (← alternativeConditions s children).bind (Expr.group? .or)
  | .compare id path c operand => do
      match (← Attempt.state).folded.lookup id with
      | some condition => return condition
      | none => comparisonCondition s.schema id c operand path.length path
  | .quantify _ field q inner =>
      quantifiedCondition s.schema field q do
        planJoins s inner
        filterCondition s inner

/-- The conditions of filters that must hold together. -/
def allConditions (s : Setting) : List Filter → Compiling (List Expr)
  | [] => return []
  | child :: rest => do
      let condition ← filterCondition s child
      let conditions ← allConditions s rest
      return condition.toList ++ conditions

/-- The conditions of alternatives; none as soon as every row matches one. -/
def alternativeConditions (s : Setting) : List Filter → Compiling (Option (List Expr))
  | [] => return some []
  | child :: rest => do
      match ← filterCondition s child with
      | none => return none
      | some condition => return (← alternativeConditions s rest).map (condition :: ·)

end

/-- A compiled filter. -/
structure Compiled where
  collection : String
  /-- The condition; none if every row matches. -/
  condition : Option Expr
  /-- The joins that the condition relies on. -/
  joins : List Join
  /-- The labels given out. -/
  labels : Labels

namespace Compiled

/-- Every row matches. -/
def isMatchAll (c : Compiled) : Bool :=
  c.condition.isNone

/-- The condition as a statement; empty if every row matches. -/
def clause (d : Sql.Dialect) (c : Compiled) : Clause :=
  match c.condition with
  | some condition => condition.clause d
  | none => .empty

/-- The columns to select; a star if none are listed. -/
def columns (c : Compiled) : List String → List Expr
  | [] => [.raw "*"]
  | names => names.map (.column c.collection)

/-- The selection of the rows that match. -/
def selection (c : Compiled) (names : List String) : Select :=
  ((Select.of (c.columns names) (.table { name := c.collection } none)).join c.joins).filter
    c.condition

end Compiled

namespace Setting

/-- Plans the joins of a filter and builds its condition. -/
def run (s : Setting) (filter : Filter) : Compiling (Option Expr) := do
  planJoins s filter
  filterCondition s filter

/-- Compiles a filter that is read already, for the rows of a collection. -/
def compileTree (s : Setting) (collection : String) (filter : Filter) :
    Except QueryError Compiled :=
  match (s.run filter).run (Progress.start collection) with
  | (.ok condition, p) => .ok ⟨collection, condition, p.plan.joins, p.labels⟩
  | (.error e, _) => .error e

/-- Compiles a filter for the rows of a collection. -/
def compile (s : Setting) (collection : String) (filter : Json) :
    Except QueryError Compiled := do
  let _ ← s.schema.primaryKey collection
  s.compileTree collection (← Filter.ofJson s.options.maxDepth filter)

/-- The condition of a filter as a statement. -/
def clause (s : Setting) (collection : String) (filter : Json) : Except QueryError Clause := do
  return (← s.compile collection filter).clause s.options.dialect

/-- The selection of the rows that match a filter, as a statement. -/
def select (s : Setting) (collection : String) (names : List String) (filter : Json) :
    Except QueryError Clause := do
  return ((← s.compile collection filter).selection names).clause s.options.dialect

end Setting
end RowFilter
