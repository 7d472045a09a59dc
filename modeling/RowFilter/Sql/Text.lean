import RowFilter.Sql.Dialect

/-!
# Statements as text

A statement is written as a row of pieces: fixed text, and holes that each hold
the value bound there.  The pieces of a compound are the pieces of its parts
with text between them, so no part needs to know where in the statement it
stands.  Numbering the holes from left to right then gives the text with its
placeholders, and their values in the same order.
-/

namespace RowFilter
namespace Sql

/-- A piece of a written statement. -/
inductive Piece where
  | text (s : String)
  | hole (v : Value)

/-- A written statement with its parameters, in the order of the placeholders. -/
structure Clause where
  sql : String
  params : List Value

namespace Piece

/-- The text of the pieces, the first hole being number `n`. -/
def write (d : Dialect) : Nat → List Piece → String
  | _, [] => ""
  | n, text s :: rest => s ++ write d n rest
  | n, hole _ :: rest => d.placeholder n ++ write d (n + 1) rest

/-- The value in a hole. -/
def value? : Piece → Option Value
  | text _ => none
  | hole v => some v

/-- Rows of pieces with a text between them. -/
def separated (separator : String) (rows : List (List Piece)) : List Piece :=
  [text separator].intercalate rows

/-- A row is written part by part: the second part goes on counting where the
first one stopped. -/
theorem write_append
    (d : Dialect) (n : Nat) (first second : List Piece) :
    write d n (first ++ second) =
      write d n first ++ write d (n + (first.filterMap value?).length) second := by
  induction first generalizing n with
  | nil => simp [write]
  | cons piece rest ih =>
      cases piece with
      | text s =>
          simp [write, List.filterMap_cons, value?, ih, String.append_assoc]
      | hole v =>
          simp [write, value?, ih, String.append_assoc, Nat.add_assoc, Nat.add_comm 1]

end Piece

namespace Clause

/-- The empty statement. -/
def empty : Clause :=
  ⟨"", []⟩

/-- The statement has no text. -/
def isEmpty (c : Clause) : Bool :=
  c.sql.isEmpty

/-- The statement made of the pieces. -/
def ofPieces (d : Dialect) (pieces : List Piece) : Clause :=
  ⟨Piece.write d 0 pieces, pieces.filterMap Piece.value?⟩

end Clause

/-- The keyword of a connective. -/
def Connective.keyword : Connective → String
  | .and => "AND"
  | .or => "OR"

/-- The symbol of an operator. -/
def BinaryOp.symbol : BinaryOp → String
  | .eq => "="
  | .notEq => "!="
  | .lt => "<"
  | .ltEq => "<="
  | .gt => ">"
  | .gtEq => ">="
  | .like => "LIKE"
  | .notLike => "NOT LIKE"

/-- An identifier, possibly qualified. -/
def identifierText (d : Dialect) (qualifier : Option String) (name : String) : String :=
  match qualifier with
  | some q => d.quoted q ++ "." ++ d.quoted name
  | none => d.quoted name

/-- The name that a row source goes by. -/
def labelText (d : Dialect) : Option String → String
  | some label => " AS " ++ d.quoted label
  | none => ""

/-- A table. -/
def Table.text (d : Dialect) (t : Table) : String :=
  identifierText d t.schema t.name

/-- The path of a JSON row source: a hole where the dialect takes a parameter
and the path is to be bound, else a literal. -/
def PathArg.pieces (d : Dialect) : PathArg → List Piece
  | .bound path =>
      match d.boundPath? with
      | some frame => [.text frame.opening, .hole (.str path), .text frame.closing]
      | none => [.text (stringLiteral path)]
  | .inline path => [.text (stringLiteral path)]

/-- The text of a JSON row, or of one of its members. -/
def jsonValuePieces (d : Dialect) (source : String) : Option String → List Piece
  | none => [.text (d.rowText (d.quoted source))]
  | some key =>
      [.text (d.memberText (d.quoted source)).opening,
        .hole (.str (d.memberKey key)),
        .text (d.memberText (d.quoted source)).closing]

mutual

/-- The pieces of an expression. -/
def Expr.pieces (d : Dialect) : Expr → List Piece
  | .ident qualifier name => [.text (identifierText d qualifier name)]
  | .value v => [.hole v]
  | .raw text => [.text text]
  | .binary left op right =>
      .text "(" :: (left.pieces d ++ .text (" " ++ op.symbol ++ " ") ::
        (right.pieces d ++ [.text ")"]))
  | .logical op operands =>
      .text "(" :: (Piece.separated (" " ++ op.keyword ++ " ") (Expr.rows d operands) ++
        [.text ")"])
  | .call function args wildcard =>
      .text (function ++ "(") ::
        ((if wildcard then [.text "*"] else Piece.separated ", " (Expr.rows d args)) ++
          [.text ")"])
  | .cast expr type =>
      .text "CAST(" :: (expr.pieces d ++ [.text (" AS " ++ d.castType type ++ ")")])
  | .inList expr list negated =>
      .text "(" :: (expr.pieces d ++ .text (if negated then " NOT IN (" else " IN (") ::
        (Piece.separated ", " (Expr.rows d list) ++ [.text "))"]))
  | .between expr low high negated =>
      .text "(" :: (expr.pieces d ++
        .text (if negated then " NOT BETWEEN " else " BETWEEN ") ::
          (low.pieces d ++ .text " AND " :: (high.pieces d ++ [.text ")"])))
  | .isNull expr negated =>
      .text "(" :: (expr.pieces d ++ [.text (if negated then " IS NOT NULL)" else " IS NULL)")])
  | .existsRow query => .text "EXISTS (" :: (query.pieces d ++ [.text ")"])
  | .inQuery expr query negated =>
      .text "(" :: (expr.pieces d ++ .text (if negated then " NOT IN (" else " IN (") ::
        (query.pieces d ++ [.text "))"]))
  | .scalar query => .text "(" :: (query.pieces d ++ [.text ")"])
  | .jsonValue source key => jsonValuePieces d source key
  | .jsonLength expr => .text (d.arrayLength ++ "(") :: (expr.pieces d ++ [.text ")"])
  | .datePart part expr =>
      .text (d.datePart part).opening :: (expr.pieces d ++ [.text (d.datePart part).closing])

/-- The pieces of each expression of a list. -/
def Expr.rows (d : Dialect) : List Expr → List (List Piece)
  | [] => []
  | e :: rest => e.pieces d :: Expr.rows d rest

/-- The pieces of a selection. -/
def Select.pieces (d : Dialect) : Select → List Piece
  | ⟨columns, source, joins, condition⟩ =>
      .text "SELECT " :: (Piece.separated ", " (Expr.rows d columns) ++
        (RowSource.optionPieces d source ++
          (Join.listPieces d joins ++ Expr.conditionPieces d condition)))

/-- The pieces of a condition, if there is one. -/
def Expr.conditionPieces (d : Dialect) : Option Expr → List Piece
  | none => []
  | some e => .text " WHERE " :: e.pieces d

/-- The pieces of a row source. -/
def RowSource.pieces (d : Dialect) : RowSource → List Piece
  | .table table label => [.text ("FROM " ++ table.text d ++ labelText d label)]
  | .jsonRows document path label =>
      .text ("FROM " ++ d.jsonRows.opening) :: (document.pieces d ++ .text ", " ::
        (path.pieces d ++ [.text (d.jsonRows.closing ++ labelText d label)]))

/-- The pieces of a row source, if there is one. -/
def RowSource.optionPieces (d : Dialect) : Option RowSource → List Piece
  | none => []
  | some source => .text " " :: source.pieces d

/-- The pieces of a join. -/
def Join.pieces (d : Dialect) : Join → List Piece
  | ⟨table, label, condition⟩ =>
      .text ("LEFT JOIN " ++ table.text d ++ labelText d label ++ " ON ") :: condition.pieces d

/-- The pieces of joins, each after a blank. -/
def Join.listPieces (d : Dialect) : List Join → List Piece
  | [] => []
  | j :: rest => .text " " :: (j.pieces d ++ Join.listPieces d rest)

end

/-- An expression as a statement. -/
def Expr.clause (d : Dialect) (e : Expr) : Clause :=
  Clause.ofPieces d (e.pieces d)

/-- A selection as a statement. -/
def Select.clause (d : Dialect) (s : Select) : Clause :=
  Clause.ofPieces d (s.pieces d)

/-- A join as a statement. -/
def Join.clause (d : Dialect) (j : Join) : Clause :=
  Clause.ofPieces d (j.pieces d)

end Sql
end RowFilter
