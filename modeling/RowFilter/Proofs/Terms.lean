import RowFilter.FieldPath.Segment
import RowFilter.Proofs.Decoding

/-!
# A decoder for conditions

The decoder for the expressions and selections that conditions are made of: what a term
can begin with, how a group can go on behind its first operand, and what a selection
consists of.

Where a dialect writes all JSON paths as literals it cannot be seen which of them were to
be bound.  What can be seen of a term is the term with such paths read as literals.

* `Expr.asRead`: what can be seen of an expression.
* `Opening`, `Continuation`: the points where the decoder has a choice.
* `Decoder.term`: the decoder.
-/

namespace RowFilter
namespace Sql

/-! ## How paths are read -/

mutual

/-- An expression with all JSON paths changed. -/
def Expr.mapPaths (f : PathArg → PathArg) : Expr → Expr
  | .ident qualifier name => .ident qualifier name
  | .value v => .value v
  | .raw text => .raw text
  | .binary left op right => .binary (left.mapPaths f) op (right.mapPaths f)
  | .logical op operands => .logical op (Expr.mapAllPaths f operands)
  | .call function args wildcard => .call function (Expr.mapAllPaths f args) wildcard
  | .cast expr type => .cast (expr.mapPaths f) type
  | .inList expr list negated => .inList (expr.mapPaths f) (Expr.mapAllPaths f list) negated
  | .between expr low high negated =>
      .between (expr.mapPaths f) (low.mapPaths f) (high.mapPaths f) negated
  | .isNull expr negated => .isNull (expr.mapPaths f) negated
  | .existsRow query => .existsRow (query.mapPaths f)
  | .inQuery expr query negated => .inQuery (expr.mapPaths f) (query.mapPaths f) negated
  | .scalar query => .scalar (query.mapPaths f)
  | .jsonValue source key => .jsonValue source key
  | .jsonLength expr => .jsonLength (expr.mapPaths f)
  | .datePart part expr => .datePart part (expr.mapPaths f)

/-- Expressions with all JSON paths changed. -/
def Expr.mapAllPaths (f : PathArg → PathArg) : List Expr → List Expr
  | [] => []
  | e :: rest => e.mapPaths f :: Expr.mapAllPaths f rest

/-- An expression, if there is one, with all JSON paths changed. -/
def Expr.mapPathsIfAny (f : PathArg → PathArg) : Option Expr → Option Expr
  | none => none
  | some e => some (e.mapPaths f)

/-- A selection with all JSON paths changed. -/
def Select.mapPaths (f : PathArg → PathArg) : Select → Select
  | ⟨columns, source, joins, condition⟩ =>
      ⟨Expr.mapAllPaths f columns, RowSource.mapPathsIfAny f source, Join.mapAllPaths f joins,
        Expr.mapPathsIfAny f condition⟩

/-- A row source with all JSON paths changed. -/
def RowSource.mapPaths (f : PathArg → PathArg) : RowSource → RowSource
  | .table t label => .table t label
  | .jsonRows document path label => .jsonRows (document.mapPaths f) (f path) label

/-- A row source, if there is one, with all JSON paths changed. -/
def RowSource.mapPathsIfAny (f : PathArg → PathArg) : Option RowSource → Option RowSource
  | none => none
  | some source => some (source.mapPaths f)

/-- Joins with all JSON paths changed. -/
def Join.mapAllPaths (f : PathArg → PathArg) : List Join → List Join
  | [] => []
  | ⟨table, label, condition⟩ :: rest =>
      ⟨table, label, condition.mapPaths f⟩ :: Join.mapAllPaths f rest

end

mutual

theorem Expr.mapPaths_id :
    ∀ e : Expr, e.mapPaths id = e
  | .ident .. | .value _ | .raw _ | .jsonValue .. => by rfl
  | .binary left _ right => by
      rw [Expr.mapPaths, left.mapPaths_id, right.mapPaths_id]
  | .logical _ operands => by rw [Expr.mapPaths, Expr.mapAllPaths_id operands]
  | .call _ args _ => by rw [Expr.mapPaths, Expr.mapAllPaths_id args]
  | .cast expr _ => by rw [Expr.mapPaths, expr.mapPaths_id]
  | .inList expr list _ => by rw [Expr.mapPaths, expr.mapPaths_id, Expr.mapAllPaths_id list]
  | .between expr low high _ => by
      rw [Expr.mapPaths, expr.mapPaths_id, low.mapPaths_id, high.mapPaths_id]
  | .isNull expr _ => by rw [Expr.mapPaths, expr.mapPaths_id]
  | .existsRow query => by rw [Expr.mapPaths, query.mapPaths_id]
  | .inQuery expr query _ => by rw [Expr.mapPaths, expr.mapPaths_id, query.mapPaths_id]
  | .scalar query => by rw [Expr.mapPaths, query.mapPaths_id]
  | .jsonLength expr => by rw [Expr.mapPaths, expr.mapPaths_id]
  | .datePart _ expr => by rw [Expr.mapPaths, expr.mapPaths_id]

theorem Expr.mapAllPaths_id :
    ∀ es : List Expr, Expr.mapAllPaths id es = es
  | [] => by rfl
  | e :: rest => by rw [Expr.mapAllPaths, e.mapPaths_id, Expr.mapAllPaths_id rest]

theorem Expr.mapPathsIfAny_id :
    ∀ e : Option Expr, Expr.mapPathsIfAny id e = e
  | none => by rfl
  | some e => by rw [Expr.mapPathsIfAny, e.mapPaths_id]

theorem Select.mapPaths_id :
    ∀ q : Select, q.mapPaths id = q
  | ⟨columns, source, joins, condition⟩ => by
      rw [Select.mapPaths, Expr.mapAllPaths_id columns, RowSource.mapPathsIfAny_id source,
        Join.mapAllPaths_id joins, Expr.mapPathsIfAny_id condition]

theorem RowSource.mapPaths_id :
    ∀ source : RowSource, source.mapPaths id = source
  | .table .. => by rfl
  | .jsonRows document _ _ => by
      rw [RowSource.mapPaths, document.mapPaths_id, id]

theorem RowSource.mapPathsIfAny_id :
    ∀ source : Option RowSource, RowSource.mapPathsIfAny id source = source
  | none => by rfl
  | some source => by rw [RowSource.mapPathsIfAny, source.mapPaths_id]

theorem Join.mapAllPaths_id :
    ∀ joins : List Join, Join.mapAllPaths id joins = joins
  | [] => by rfl
  | ⟨_, _, condition⟩ :: rest => by
      rw [Join.mapAllPaths, condition.mapPaths_id, Join.mapAllPaths_id rest]

end

theorem Expr.mapAllPaths_eq_map
    (f : PathArg → PathArg) (es : List Expr) :
    Expr.mapAllPaths f es = es.map (Expr.mapPaths f) := by
  induction es with
  | nil => rfl
  | cons e rest ih => rw [Expr.mapAllPaths, ih, List.map_cons]

theorem Expr.mapPathsIfAny_eq_map
    (f : PathArg → PathArg) (e : Option Expr) :
    Expr.mapPathsIfAny f e = e.map (Expr.mapPaths f) := by
  cases e <;> rfl

/-- A path as a literal. -/
def PathArg.inlined : PathArg → PathArg
  | .bound path => .inline path
  | .inline path => .inline path

/-- What can be seen of a path where it is written. -/
def Dialect.pathAsRead : Dialect → PathArg → PathArg
  | .postgres => id
  | .mysql => PathArg.inlined

/-- What can be seen of an expression where it is written. -/
def Expr.asRead (d : Dialect) (e : Expr) : Expr :=
  e.mapPaths d.pathAsRead

theorem Expr.asRead_logical
    (d : Dialect) (op : Connective) (operands : List Expr) :
    (Expr.logical op operands).asRead d = .logical op (operands.map (Expr.asRead d)) := by
  rw [Expr.asRead, Expr.mapPaths, Expr.mapAllPaths_eq_map]
  rfl

theorem Expr.asRead_inList
    (d : Dialect) (e : Expr) (list : List Expr) (negated : Bool) :
    (Expr.inList e list negated).asRead d =
      .inList (e.asRead d) (list.map (Expr.asRead d)) negated := by
  rw [Expr.asRead, Expr.mapPaths, Expr.mapAllPaths_eq_map]
  rfl

/-! ## The decoder -/

/-- An expression, or a selection up to its closing parenthesis. -/
inductive Term where
  | expr (e : Expr)
  | query (q : Select)

namespace Term

def pieces (d : Dialect) : Term → List Piece
  | expr e => e.pieces d
  | query q => q.pieces d ++ [.text ")"]

/-- What can be seen of a term where it is written. -/
def asRead (d : Dialect) : Term → Term
  | expr e => expr (e.asRead d)
  | query q => query (q.mapPaths d.pathAsRead)

end Term

/-- All operators between two operands. -/
def BinaryOp.all : List BinaryOp :=
  [.eq, .notEq, .lt, .ltEq, .gt, .gtEq, .like, .notLike]

/-- The text whose quotes and backslashes were escaped. -/
def unescaped : List Char → List Char
  | [] => []
  | [c] => [c]
  | c :: next :: rest =>
      if c = '\\' then next :: unescaped rest else c :: unescaped (next :: rest)

namespace Decoder

/-- Goes on with the choice whose opening comes next. -/
def choose {α κ : Type} (choices : List κ) (opening : κ → String) (x : κ → Decoder α) :
    Decoder α :=
  branch (choices.map fun k => (opening k, x k))

def expr (x : Decoder Term) : Decoder Expr := do
  match ← x with
  | .expr e => return e
  | .query _ => stuck

def query (x : Decoder Term) : Decoder Select := do
  match ← x with
  | .expr _ => stuck
  | .query q => return q

/-- How a reference goes on behind the name of its row source. -/
def references (d : Dialect) (source : String) : List (String × Decoder Expr) := [
  ("." ++ d.quote, do return .column source (← name d.identifierQuote)),
  (" #>> '\x7b\x7d'", return .jsonValue source none),
  (" ->> ", do return .jsonValue source (some (← textHole d)))]

/-- A reference behind its first quote. -/
def reference (d : Dialect) : Decoder Expr := do
  let source ← name d.identifierQuote
  branch (references d source)

/-- How the text of a JSON row goes on where a function gives it. -/
def rowTexts (d : Dialect) : List (String × Decoder Expr) := [
  (d.quote, do
    let source ← name d.identifierQuote
    expect ".`value`)"
    return .jsonValue source none),
  ("JSON_EXTRACT(" ++ d.quote, do
    let source ← name d.identifierQuote
    expect ".`value`, CONCAT('$.\"', "
    let key ← textHole d
    expect ", '\"')))"
    return .jsonValue source (some (String.ofList (unescaped key.toList))))]

/-- What a selection selects. -/
def columns (d : Dialect) : List (String × Decoder Expr) := [
  (d.quote, reference d),
  ("1", return .raw "1"),
  ("COUNT(", do
    expect "*"
    expect ")"
    return .call "COUNT" [] true)]

/-- How a JSON path is passed. -/
def paths (d : Dialect) : List (String × Decoder PathArg) := [
  ("'", do return .inline (← name '\'')),
  ("CAST(", do
    let path ← textHole d
    expect " AS jsonpath)"
    return .bound path)]

/-- What a selection is made from. -/
def sources (d : Dialect) : List (String × Decoder RowSource) := [
  (d.quote, do
    let table ← name d.identifierQuote
    expect (" AS " ++ d.quote)
    let label ← name d.identifierQuote
    return .table { name := table } (some label)),
  (d.jsonRows.opening, do
    expect d.quote
    let document ← reference d
    expect ", "
    let path ← branch (paths d)
    expect d.jsonRows.closing
    expect (" AS " ++ d.quote)
    let label ← name d.identifierQuote
    return .jsonRows document path (some label))]

/-- The row source of a selection. -/
def source (d : Dialect) : Decoder RowSource := do
  expect "FROM "
  branch (sources d)

/-- The joins and the condition of a selection, up to its closing parenthesis. -/
def ending (d : Dialect) (inner : Decoder Term) : Nat → Decoder (List Join × Option Expr)
  | 0 => stuck
  | limit + 1 => branch [
      (")", return ([], none)),
      (" WHERE ", do
        let condition ← inner.expr
        expect ")"
        return ([], some condition)),
      (" LEFT JOIN " ++ d.quote, do
        let table ← name d.identifierQuote
        expect (" AS " ++ d.quote)
        let label ← name d.identifierQuote
        expect " ON "
        let condition ← inner.expr
        let rest ← ending d inner limit
        return (⟨{ name := table }, some label, condition⟩ :: rest.1, rest.2))]

/-- A selection behind its keyword. -/
def selection (d : Dialect) (inner : Decoder Term) (limit : Nat) : Decoder Select := do
  let column ← branch (columns d)
  expect " "
  let source ← source d
  let rest ← ending d inner limit
  return ⟨[column], some source, rest.1, rest.2⟩

end Decoder

/-- How a group can go on behind its first operand. -/
inductive Continuation where
  | binary (op : BinaryOp)
  | logical (op : Connective)
  | among (negated : Bool)
  | between (negated : Bool)
  | isNull (negated : Bool)
deriving DecidableEq

namespace Continuation

def all : List Continuation :=
  BinaryOp.all.map binary ++ [logical .and, logical .or] ++
    [false, true].flatMap fun negated => [among negated, between negated, isNull negated]

def text : Continuation → String
  | binary op => " " ++ op.symbol ++ " "
  | logical op => " " ++ op.keyword ++ " "
  | among negated => if negated then " NOT IN (" else " IN ("
  | between negated => if negated then " NOT BETWEEN " else " BETWEEN "
  | isNull negated => if negated then " IS NOT NULL)" else " IS NULL)"

theorem mem_all
    (c : Continuation) :
    c ∈ all := by
  rcases c with op | op | negated | negated | negated
  · cases op <;> decide
  · cases op <;> decide
  · cases negated <;> decide
  · cases negated <;> decide
  · cases negated <;> decide

theorem clashing_all :
    Clashing (all.map text) := by
  decide

theorem beginsUnquoted_text
    (c : Continuation) :
    BeginsUnquoted c.text :=
  (by decide : ∀ c ∈ all, BeginsUnquoted c.text) c c.mem_all

open Decoder in
/-- The rest of a group whose first operand is `left`. -/
def rest (inner : Decoder Term) (limit : Nat) (left : Expr) : Continuation → Decoder Expr
  | binary op => do
      let right ← inner.expr
      expect ")"
      return .binary left op right
  | logical op => do
      let others ← listOf (" " ++ op.keyword ++ " ") inner.expr limit
      return .logical op (left :: others)
  | among negated => do
      match ← inner with
      | .query q =>
          expect ")"
          return .inQuery left q negated
      | .expr e =>
          branch [
            ("))", return .inList left [e] negated),
            (", ", do
              let others ← listOf ", " inner.expr limit
              expect ")"
              return .inList left (e :: others) negated)]
  | between negated => do
      let low ← inner.expr
      expect " AND "
      let high ← inner.expr
      expect ")"
      return .between left low high negated
  | isNull negated => return .isNull left negated

end Continuation

/-- What a term can begin with. -/
inductive Opening where
  | group
  | select
  | name
  | value
  | never
  | existsRow
  | cast
  | lower
  | arrayLength
  | rowText
  | datePart (part : DatePart)
deriving DecidableEq

namespace Opening

def all : List Opening :=
  [group, select, name, value, never, existsRow, cast, lower, arrayLength, rowText] ++
    DatePart.all.map datePart

def text (d : Dialect) : Opening → String
  | group => "("
  | select => "SELECT "
  | name => d.quote
  | value => d.mark
  | never => "1 = 0"
  | existsRow => "EXISTS ("
  | cast => "CAST("
  | lower => "LOWER("
  | arrayLength => d.arrayLength ++ "("
  | rowText => "JSON_UNQUOTE("
  | datePart part => (d.datePart part).opening

theorem mem_all
    (o : Opening) :
    o ∈ all := by
  cases o with
  | datePart part => cases part <;> decide
  | _ => decide

theorem clashing_all
    (d : Dialect) :
    Clashing (all.map (text d)) := by
  cases d <;> decide

open Decoder in
/-- The rest of a term. -/
def rest (d : Dialect) (inner : Decoder Term) (limit : Nat) : Opening → Decoder Term
  | group => do
      match ← inner with
      | .query q => return .expr (.scalar q)
      | .expr left =>
          return .expr (← choose Continuation.all Continuation.text
            (Continuation.rest inner limit left))
  | select => do return .query (← selection d inner limit)
  | name => do return .expr (← reference d)
  | value => do return .expr (.value (← Decoder.value d))
  | never => return .expr (.raw "1 = 0")
  | existsRow => do return .expr (.existsRow (← inner.query))
  | cast => do
      let e ← inner.expr
      let type ← choose [CastType.numeric, .text] (" AS " ++ d.castType · ++ ")") pure
      return .expr (.cast e type)
  | lower => do
      let e ← inner.expr
      expect ")"
      return .expr (.call "LOWER" [e] false)
  | arrayLength => do
      let e ← inner.expr
      expect ")"
      return .expr (.jsonLength e)
  | rowText => do return .expr (← branch (rowTexts d))
  | datePart part => do
      let e ← inner.expr
      expect (d.datePart part).closing
      return .expr (.datePart part e)

end Opening

/-- A term of at most `limit` levels. -/
def Decoder.term (d : Dialect) : Nat → Decoder Term
  | 0 => stuck
  | limit + 1 => choose Opening.all (Opening.text d) (Opening.rest d (term d limit) limit)

end Sql
end RowFilter
