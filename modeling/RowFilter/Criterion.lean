import RowFilter.QueryError
import RowFilter.Sql.Text

/-!
# Criteria

A criterion is a comparison together with the values it compares with: what is
left to give is the expression that is compared.  A comparison and an operand
determine the criterion.
-/

namespace RowFilter

open Sql (BinaryOp CastType Expr)

/-- What is asked of an expression. -/
inductive Criterion where
  | compare (op : BinaryOp) (v : Value)
  | like (pattern : Value) (negated caseless : Bool)
  | inList (values : List Value) (negated : Bool)
  | between (low high : Value) (negated : Bool)
  | isNull (negated : Bool)
  /-- Holds of nothing. -/
  | never
  /-- Holds of everything. -/
  | always

namespace Criterion

/-- The bound values, in order. -/
def values : Criterion → List Value
  | compare _ v => [v]
  | like pattern _ _ => [pattern]
  | inList vs _ => vs
  | between low high _ => [low, high]
  | isNull _ => []
  | never => []
  | always => []

/-- Changes every bound value. -/
def map (f : Value → Value) : Criterion → Criterion
  | compare op v => compare op (f v)
  | like pattern negated caseless => like (f pattern) negated caseless
  | inList vs negated => inList (vs.map f) negated
  | between low high negated => between (f low) (f high) negated
  | isNull negated => isNull negated
  | never => never
  | always => always

/-- The criterion is met by everything. -/
def isAlways : Criterion → Bool
  | always => true
  | _ => false

/-- The criterion as text, with a question mark for each bound value. -/
def template : Criterion → String
  | compare op _ => op.symbol ++ " ?"
  | like _ negated _ => if negated then "NOT LIKE ?" else "LIKE ?"
  | inList vs negated =>
      (if negated then "NOT IN" else "IN") ++ " (" ++ ", ".intercalate (vs.map fun _ => "?") ++ ")"
  | between _ _ negated => if negated then "NOT BETWEEN ? AND ?" else "BETWEEN ? AND ?"
  | isNull negated => if negated then "IS NOT NULL" else "IS NULL"
  | never => "1 = 0"
  | always => ""

/-- The type to which a text out of a JSON document is cast before it is
compared: numeric when there are values and all of them are numbers. -/
def castType (c : Criterion) : CastType :=
  if c.values.isEmpty || !c.values.all Value.readsAsNumber then .text else .numeric

/-- The criterion with its values brought to the type of the cast. -/
def casted (c : Criterion) : Criterion :=
  match c.castType with
  | .numeric => c.map Value.asNumber
  | .text => c.map Value.asText

/-- The condition that the criterion puts on an expression; none if it is met by
everything. -/
def apply (target : Expr) : Criterion → Option Expr
  | compare op v => some (.binary target op (.value v))
  | like pattern negated caseless =>
      some (.binary (if caseless then .call "LOWER" [target] false else target)
        (if negated then .notLike else .like) (.value pattern))
  | inList vs negated => some (.inList target (vs.map .value) negated)
  | between low high negated => some (.between target (.value low) (.value high) negated)
  | isNull negated => some (.isNull target negated)
  | never => some (.raw "1 = 0")
  | always => none

@[simp] theorem values_map
    (f : Value → Value) (c : Criterion) :
    (c.map f).values = c.values.map f := by
  cases c <;> rfl

@[simp] theorem isAlways_map
    (f : Value → Value) (c : Criterion) :
    (c.map f).isAlways = c.isAlways := by
  cases c <;> rfl

@[simp] theorem isAlways_casted
    (c : Criterion) :
    c.casted.isAlways = c.isAlways := by
  unfold casted
  split <;> simp

/-- Only the criterion that everything meets puts no condition. -/
theorem apply_eq_none_iff
    (target : Expr) (c : Criterion) :
    c.apply target = none ↔ c.isAlways = true := by
  cases c <;> simp [apply, isAlways]

end Criterion

/-- The operator that a comparison by order is written with. -/
def Inequality.binaryOp : Inequality → BinaryOp
  | lt => .lt
  | lte => .ltEq
  | gt => .gt
  | gte => .gtEq

/-- The pattern that finds a text at an anchor. -/
def Anchor.around : Anchor → String → String
  | anywhere, text => "%" ++ text ++ "%"
  | start, text => text ++ "%"
  | finish, text => "%" ++ text

namespace Comparison

/-- The values that an operand lists: the items of an array, the parts of a text
between commas, or the operand itself.  Null and a blank text list nothing. -/
def listOperand : Json → List Value
  | .arr items => items.map Value.ofJson
  | .str s =>
      if (Text.trim s.toList).isEmpty then
        []
      else
        (s.toList.splitOn ',').map fun part => .str (String.ofList (Text.trim part))
  | .null => []
  | operand => [Value.ofJson operand]

/-- A bound of a range, as a number if it spells one. -/
def bound? : Value → Option Value
  | .null => none
  | v => some v.asNumber

/-- The bounds of a range: a missing lower bound is zero, and a missing upper
bound is the lower one. -/
def bounds (values : List Value) : Value × Value :=
  let low := (values.head?.bind bound?).getD (.int 0)
  let high := (values.tail.head?.bind bound?).getD low
  (low, high)

/-- The criterion of a comparison with an operand. -/
def criterion (c : Comparison) (operand : Json) : Except QueryError Criterion :=
  match c with
  | equal negated =>
      match Value.ofJson operand with
      | .null => .ok (.isNull negated)
      | v => .ok (.compare (if negated then .notEq else .eq) v)
  | inequality i => .ok (.compare i.binaryOp (Value.ofJson operand).asNumber)
  | member negated =>
      match listOperand operand with
      | [] => .ok (if negated then .always else .never)
      | values => .ok (.inList values negated)
  | null negated =>
      let wanted := (Value.ofJson operand).toBool?.getD true
      .ok (.isNull (negated == wanted))
  | empty negated => .ok (.isNull negated)
  | between negated =>
      let (low, high) := bounds (listOperand operand)
      .ok (.between low high negated)
  | pattern p =>
      match (Value.ofJson operand).toText? with
      | some text =>
          let text := if p.caseless then Text.lower text else text
          .ok (.like (.str (p.anchor.around text)) p.negated p.caseless)
      | none => .error (.nothingToMatch c)

end Comparison

/-- The criterion of an operator with an operand; a quantifier has none. -/
def Operator.criterion (op : Operator) (operand : Json) : Except QueryError Criterion :=
  match op with
  | compare c => c.criterion operand
  | quantify q => .error (.quantifierOnValue q)

end RowFilter
