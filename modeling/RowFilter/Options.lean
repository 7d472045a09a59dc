import RowFilter.Json.Reader
import RowFilter.Json.Record
import RowFilter.Sql.Dialect

/-!
# Options

What a caller chooses for a compilation, and how it is written in a document.
-/

namespace RowFilter

open Sql (Dialect)

/-- The choices for a compilation. -/
structure Options where
  dialect : Dialect := .postgres
  /-- The filter decides a permission: alternatives beside an empty one are still
  joined. -/
  permissionCase : Bool := false
  /-- The deepest nesting of filters. -/
  maxDepth : Nat := 32
deriving DecidableEq

/-- The name of a dialect in options. -/
def Sql.Dialect.optionName : Dialect → String
  | .postgres => "postgres"
  | .mysql => "mysql"

/-- The dialect with a name. -/
def Sql.Dialect.ofOptionName? : String → Option Dialect
  | "postgres" => some .postgres
  | "mysql" => some .mysql
  | _ => none

namespace Options

/-- A member that may be missing. -/
def member? {α : Type} (default : α) (read? : Json → Option α) : Option Json → Option α
  | none => some default
  | some j => read? j

/-- Reads options; each one has a default. -/
def ofJson? (j : Json) : Option Options :=
  match Json.record? ["dialect", "permission_case", "max_depth"] j with
  | some [dialect, permissionCase, maxDepth] => do
      return {
        dialect := ←
          member? .postgres (fun d => (Json.choice? d).bind Dialect.ofOptionName?) dialect
        permissionCase := ← member? false Json.bool? permissionCase
        maxDepth := ← member? 32 Json.nat? maxDepth }
  | _ => none

/-- Reads options from text. -/
def ofText? (text : String) : Option Options :=
  (Json.scan? text).bind ofJson?

/-- Writes options. -/
def toJson (o : Options) : Json :=
  .obj [
    ("dialect", .str o.dialect.optionName),
    ("permission_case", .bool o.permissionCase),
    ("max_depth", Json.ofNat o.maxDepth)]

end Options
end RowFilter
