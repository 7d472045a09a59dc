/-!
# Operators of filters

An operator either compares a field with an operand, or quantifies over the rows
of a relation and takes a filter for them.
-/

namespace RowFilter

/-- Where a text is looked for. -/
inductive Anchor where
  | anywhere
  | start
  | finish
deriving DecidableEq

/-- A search for a text. -/
structure Pattern where
  anchor : Anchor
  negated : Bool
  /-- Letter case does not count. -/
  caseless : Bool
deriving DecidableEq

/-- Comparisons by order. -/
inductive Inequality where
  | lt
  | lte
  | gt
  | gte
deriving DecidableEq

/-- Comparisons of a field with an operand. -/
inductive Comparison where
  | equal (negated : Bool)
  | inequality (i : Inequality)
  | member (negated : Bool)
  | null (negated : Bool)
  | empty (negated : Bool)
  | between (negated : Bool)
  | pattern (p : Pattern)
deriving DecidableEq

/-- How many related rows must match a filter. -/
inductive Quantifier where
  | some
  | none
deriving DecidableEq

/-- An operator of a filter. -/
inductive Operator where
  | compare (c : Comparison)
  | quantify (q : Quantifier)
deriving DecidableEq

namespace Anchor

def word : Anchor → String
  | anywhere => "contains"
  | start => "starts_with"
  | finish => "ends_with"

end Anchor

/-- The mark of a negated operator. -/
def negation (negated : Bool) : String :=
  if negated then "n" else ""

namespace Pattern

def key (p : Pattern) : String :=
  "_" ++ negation p.negated ++ (if p.caseless then "i" else "") ++ p.anchor.word

/-- All patterns with a given anchor. -/
def allAt (anchor : Anchor) : List Pattern :=
  [⟨anchor, false, false⟩, ⟨anchor, true, false⟩, ⟨anchor, false, true⟩, ⟨anchor, true, true⟩]

end Pattern

namespace Inequality

def key : Inequality → String
  | lt => "_lt"
  | lte => "_lte"
  | gt => "_gt"
  | gte => "_gte"

end Inequality

namespace Comparison

def key : Comparison → String
  | equal negated => "_" ++ negation negated ++ "eq"
  | inequality i => i.key
  | member negated => "_" ++ negation negated ++ "in"
  | null negated => "_" ++ negation negated ++ "null"
  | empty negated => "_" ++ negation negated ++ "empty"
  | between negated => "_" ++ negation negated ++ "between"
  | pattern p => p.key

/-- All comparisons. -/
def all : List Comparison :=
  [equal false, equal true, inequality .lt, inequality .lte, inequality .gt, inequality .gte,
    member false, member true, null false, null true] ++
  (Pattern.allAt .anywhere ++ Pattern.allAt .start ++ Pattern.allAt .finish).map pattern ++
  [between false, between true, empty false, empty true]

/-- The comparison searches for a text. -/
def isPattern : Comparison → Bool
  | pattern _ => true
  | _ => false

/-- The comparison needs an order. -/
def needsOrder : Comparison → Bool
  | inequality _ => true
  | between _ => true
  | _ => false

/-- The comparison only asks whether there is a value. -/
def asksPresence : Comparison → Bool
  | null _ => true
  | empty _ => true
  | _ => false

end Comparison

namespace Quantifier

def key : Quantifier → String
  | some => "_some"
  | none => "_none"

end Quantifier

namespace Operator

def key : Operator → String
  | compare c => c.key
  | quantify q => q.key

/-- All operators. -/
def all : List Operator :=
  Comparison.all.map compare ++ [quantify .some, quantify .none]

/-- The operator with a given key. -/
def ofKey? (key : String) : Option Operator :=
  all.find? (·.key == key)

def isPattern : Operator → Bool
  | compare c => c.isPattern
  | quantify _ => false

def needsOrder : Operator → Bool
  | compare c => c.needsOrder
  | quantify _ => false

def asksPresence : Operator → Bool
  | compare c => c.asksPresence
  | quantify _ => false

/-- The operator takes a filter for related rows. -/
def isQuantified : Operator → Bool
  | compare _ => false
  | quantify _ => true

end Operator
end RowFilter
