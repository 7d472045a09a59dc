import RowFilter.Decimal.Layout
import RowFilter.Decimal.Reader
import RowFilter.Json.Compact
import RowFilter.Text.Blank
import RowFilter.Text.Lower

/-!
# Bound values

A value is what a statement binds to a placeholder.  Scalars of a filter have a
value of their own kind; arrays and objects stay documents.

The conversions say how a value reads as a number, a text and a truth value, and
how it is brought to the kind that a comparison works on.
-/

namespace RowFilter

/-- A value bound to a placeholder. -/
inductive Value where
  | int (i : Int)
  | float (x : Double)
  | str (s : String)
  | bool (b : Bool)
  | json (j : Json)
  | null

namespace Value

/-- The value of a JSON number: an integer of 64 signed bits, else a double. -/
def ofNumber : Json.Number → Value
  | .int i => if Decimal.fitsInt64 i then .int i else .float (Double.ofInt i)
  | .float x => .float x

/-- The value of an operand. -/
def ofJson : Json → Value
  | .null => .null
  | .bool b => .bool b
  | .num n => ofNumber n
  | .str s => .str s
  | .arr items => .json (.arr items)
  | .obj members => .json (.obj members)

/-- Doubles are written as texts with all their digits and never an exponent. -/
def doubleLayout : Decimal.Layout where
  plainFrom := none
  plainBelow := none
  pointZero := false
  tie := .upward
  nan := "NaN"
  infinity := "inf"

/-- The value as a double, if it reads as a number. -/
def toDouble? : Value → Option Double
  | .int i => some (Double.ofInt i)
  | .float x => some x
  | .str s => Decimal.readDouble? (Text.trim s.toList)
  | .json (.num n) => some n.toDouble
  | _ => none

/-- The value as a text; only null has none. -/
def toText? : Value → Option String
  | .int i => some (String.ofList (Decimal.intChars i))
  | .float x => some (doubleLayout.text x)
  | .str s => some s
  | .bool b => some (if b then "true" else "false")
  | .json (.str s) => some s
  | .json j => some j.compact
  | .null => none

/-- The truth value that a text spells. -/
def readTruth? (s : String) : Option Bool :=
  let word := Text.lower s
  if word = "true" ∨ word = "1" then some true
  else if word = "false" ∨ word = "0" then some false
  else none

/-- The value as a truth value. -/
def toBool? : Value → Option Bool
  | .int i => some (i != 0)
  | .float x => some (!x.isZero)
  | .str s => readTruth? s
  | .bool b => some b
  | .json (.bool b) => some b
  | _ => none

/-- The value reads as a finite number. -/
def readsAsNumber (v : Value) : Bool :=
  v.toDouble?.any Double.isFinite

/-- The number that a text spells, an integer if it has 64 bits. -/
def readNumber? (s : String) : Option Value :=
  let cs := Text.trim s.toList
  match Decimal.readInt? cs with
  | some i => some (.int i)
  | none =>
      match Decimal.readDouble? cs with
      | some x => if x.isFinite then some (.float x) else none
      | none => none

/-- A text that spells a number becomes that number. -/
def asNumber : Value → Value
  | .str s => (readNumber? s).getD (.str s)
  | v => v

/-- Everything but null becomes a text. -/
def asText (v : Value) : Value :=
  match v.toText? with
  | some s => .str s
  | none => .null

end Value
end RowFilter
