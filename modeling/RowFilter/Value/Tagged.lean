import RowFilter.Value

/-!
# Values as tagged documents

A value is written as an object whose one member names its kind; null is the
name alone.
-/

namespace RowFilter
namespace Value

/-- The document of a value. -/
def toTagged : Value → Json
  | .int i => .obj [("Int", .num (.int i))]
  | .float x => .obj [("Float", if x.isFinite then .num (.float x) else .null)]
  | .str s => .obj [("String", .str s)]
  | .bool b => .obj [("Boolean", .bool b)]
  | .json j => .obj [("Json", j)]
  | .null => .str "Null"

/-- The value of a kind and its content. -/
def ofTag? : String → Json → Option Value
  | "Int", .num (.int i) => if Decimal.fitsInt64 i then some (.int i) else none
  | "Float", .num n => some (.float n.toDouble)
  | "String", .str s => some (.str s)
  | "Boolean", .bool b => some (.bool b)
  | "Json", j => some (.json j)
  | "Null", .null => some .null
  | _, _ => none

/-- The value written by a document. -/
def ofTagged? : Json → Option Value
  | .str "Null" => some .null
  | .obj [(tag, content)] => ofTag? tag content
  | _ => none

end Value
end RowFilter
