import RowFilter.Criterion

/-!
# Mapped operators

An operator and an operand are mapped to a template and a list of values.  The template
says which condition is put around an expression, and takes its values from the front of
the list.  Nothing holds the two together: where a value is missing no condition is built,
and values that are left over are dropped.  A criterion is a template that holds its values.
-/

namespace RowFilter

open Sql (BinaryOp CastType Expr)

/-- The shape of a condition around the expression that is compared. -/
inductive Template where
  | compare (op : BinaryOp)
  | like (negated caseless : Bool)
  | inList (negated : Bool)
  | between (negated : Bool)
  | isNull (negated : Bool)
  /-- Holds of nothing. -/
  | never
  /-- Holds of everything. -/
  | always
deriving DecidableEq

/-- A template with the values that are bound in it. -/
structure MappedOperator where
  template : Template
  values : List Value

namespace MappedOperator

/-- The template as text, with a question mark for each value that it takes. -/
def text (m : MappedOperator) : String :=
  match m.template with
  | .compare op => op.symbol ++ " ?"
  | .like negated _ => if negated then "NOT LIKE ?" else "LIKE ?"
  | .inList negated =>
      (if negated then "NOT IN" else "IN") ++ " (" ++
        ", ".intercalate (List.replicate m.values.length "?") ++ ")"
  | .between negated => if negated then "NOT BETWEEN ? AND ?" else "BETWEEN ? AND ?"
  | .isNull negated => if negated then "IS NOT NULL" else "IS NULL"
  | .never => "1 = 0"
  | .always => ""

/-- The type to which a text out of a JSON document is cast before it is
compared: numeric when there are values and all of them are numbers. -/
def castType (m : MappedOperator) : CastType :=
  if m.values.isEmpty || !m.values.all Value.readsAsNumber then .text else .numeric

/-- The template with the values brought to the type of the cast. -/
def casted (m : MappedOperator) : MappedOperator :=
  match m.castType with
  | .numeric => { m with values := m.values.map Value.asNumber }
  | .text => { m with values := m.values.map Value.asText }

/-- The condition on an expression, with the values taken one after the other; none if
the template holds of everything or a value is missing. -/
def apply (target : Expr) (m : MappedOperator) : Option Expr :=
  match m.template with
  | .compare op => do
      let v ← m.values.head?
      return .binary target op (.value v)
  | .like negated caseless => do
      let pattern ← m.values.head?
      return .binary (if caseless then .call "LOWER" [target] false else target)
        (if negated then .notLike else .like) (.value pattern)
  | .inList negated => some (.inList target (m.values.map .value) negated)
  | .between negated => do
      let low ← m.values.head?
      let high ← m.values.tail.head?
      return .between target (.value low) (.value high) negated
  | .isNull negated => some (.isNull target negated)
  | .never => some (.raw "1 = 0")
  | .always => none

end MappedOperator

/-- The template and the values of a comparison with an operand. -/
def Comparison.mapped (c : Comparison) (operand : Json) : Except QueryError MappedOperator :=
  match c with
  | equal negated =>
      match Value.ofJson operand with
      | .null => .ok ⟨.isNull negated, []⟩
      | v => .ok ⟨.compare (if negated then .notEq else .eq), [v]⟩
  | inequality i => .ok ⟨.compare i.binaryOp, [(Value.ofJson operand).asNumber]⟩
  | member negated =>
      let values := listOperand operand
      let template : Template :=
        match values.isEmpty, negated with
        | true, false => .never
        | true, true => .always
        | false, _ => .inList negated
      .ok ⟨template, values⟩
  | null negated =>
      let wanted := (Value.ofJson operand).toBool?.getD true
      .ok ⟨.isNull (negated == wanted), []⟩
  | empty negated => .ok ⟨.isNull negated, []⟩
  | between negated =>
      let (low, high) := bounds (listOperand operand)
      .ok ⟨.between negated, [low, high]⟩
  | pattern p =>
      match (Value.ofJson operand).toText? with
      | some text =>
          let text := if p.caseless then Text.lower text else text
          .ok ⟨.like p.negated p.caseless, [.str (p.anchor.around text)]⟩
      | none => .error (.nothingToMatch c)

/-- The template and the values of an operator with an operand; a quantifier has none. -/
def Operator.mapped (op : Operator) (operand : Json) : Except QueryError MappedOperator :=
  match op with
  | compare c => c.mapped operand
  | quantify q => .error (.quantifierOnValue q)

end RowFilter
