import RowFilter.Value

/-!
# SQL expressions and selections

The statements that filters are compiled to, without any dialect: a dialect
only decides how they are written.
-/

namespace RowFilter
namespace Sql

/-- Operators between two operands. -/
inductive BinaryOp where
  | eq
  | notEq
  | lt
  | ltEq
  | gt
  | gtEq
  | like
  | notLike
deriving DecidableEq

/-- Operators that join any number of conditions. -/
inductive Connective where
  | and
  | or
deriving DecidableEq

/-- Types that an expression is cast to. -/
inductive CastType where
  | numeric
  | text
deriving DecidableEq

/-- Components of a date or a time. -/
inductive DatePart where
  | year
  | month
  | week
  | day
  | weekday
  | hour
  | minute
  | second
deriving DecidableEq

/-- A table, possibly in a named schema. -/
structure Table where
  schema : Option String := none
  name : String
deriving DecidableEq

/-- How a JSON path reaches the database. -/
inductive PathArg where
  /-- As a parameter, where the dialect allows one. -/
  | bound (path : String)
  /-- As a literal in the statement. -/
  | inline (path : String)
deriving DecidableEq

mutual

/-- An expression. -/
inductive Expr where
  /-- A name, possibly qualified by a row source. -/
  | ident (qualifier : Option String) (name : String)
  /-- A value, written as a placeholder. -/
  | value (v : Value)
  /-- A fragment that is written as it stands. -/
  | raw (text : String)
  | binary (left : Expr) (op : BinaryOp) (right : Expr)
  | logical (op : Connective) (operands : List Expr)
  /-- A function call; with `wildcard` its argument is a star. -/
  | call (function : String) (args : List Expr) (wildcard : Bool)
  | cast (expr : Expr) (type : CastType)
  | inList (expr : Expr) (list : List Expr) (negated : Bool)
  | between (expr low high : Expr) (negated : Bool)
  | isNull (expr : Expr) (negated : Bool)
  /-- The selection has a row. -/
  | existsRow (query : Select)
  | inQuery (expr : Expr) (query : Select) (negated : Bool)
  /-- The value of a selection with one row and one column. -/
  | scalar (query : Select)
  /-- The text of a JSON row, or of its member `key`. -/
  | jsonValue (source : String) (key : Option String)
  | jsonLength (expr : Expr)
  | datePart (part : DatePart) (expr : Expr)

/-- A selection. -/
structure Select where
  columns : List Expr
  source : Option RowSource
  joins : List Join
  condition : Option Expr

/-- Where the rows of a selection come from, and what they are called. -/
inductive RowSource where
  | table (table : Table) (label : Option String)
  /-- One row for each match of a path in a JSON document. -/
  | jsonRows (document : Expr) (path : PathArg) (label : Option String)

/-- A left join. -/
structure Join where
  table : Table
  label : Option String
  condition : Expr

end

/-- The name `field` of the row source `qualifier`. -/
def Expr.column (qualifier field : String) : Expr :=
  .ident (some qualifier) field

/-- Conditions under one connective; a single one stands for itself. -/
def Expr.group? (op : Connective) : List Expr → Option Expr
  | [] => none
  | [e] => some e
  | operands => some (.logical op operands)

namespace Select

/-- A selection of all rows of a source. -/
def of (columns : List Expr) (source : RowSource) : Select where
  columns := columns
  source := some source
  joins := []
  condition := none

/-- Adds joins after those already there. -/
def join (s : Select) (joins : List Join) : Select :=
  { s with joins := s.joins ++ joins }

/-- Sets the condition, if one is given. -/
def filter (s : Select) (condition : Option Expr) : Select :=
  { s with condition := condition <|> s.condition }

/-- Adds a condition to the one already there. -/
def and (s : Select) (condition : Expr) : Select :=
  { s with condition := Expr.group? .and (s.condition.toList ++ [condition]) }

end Select
end Sql
end RowFilter
