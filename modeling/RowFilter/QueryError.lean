import RowFilter.FieldPath.Segment
import RowFilter.FieldType
import RowFilter.Json.Compact
import RowFilter.Operator

/-!
# Why a query is refused

One constructor for each cause, and one function for the wording.
-/

namespace RowFilter

/-- The cause for which a query is refused. -/
inductive QueryError where
  -- the shape of the filter
  | filterNotObject (got : Json)
  | tooDeep (limit : Nat)
  | fieldNotObject (key : String) (got : Json)
  | groupNotArray (key : String)
  | groupItemNotObject (key : String) (got : Json)
  | operatorWithoutField (key : String)
  | functionBeforeLast
  | quantifierTooDeep (key : String)
  | quantifierNotObject (key : String)
  -- the spelling of a field key
  | unbalancedClose (key : String)
  | unbalancedOpen (key : String)
  | malformedSegment (segment : String)
  | unknownFunction (name : String)
  | functionOfPath (name argument : String)
  -- the operand of an operator
  | nothingToMatch (c : Comparison)
  | quantifierOnValue (q : Quantifier)
  -- the way of a path through the schema
  | emptyPath
  | unknownCollection (collection : String)
  | unknownField (field collection : String)
  | malformedJsonReference (field : String)
  | indexOutsideJson (field : String)
  | notRelation (field collection : String)
  | scopeMissing (field : String)
  | scopeNotAllowed (scope field : String)
  | scopeUnexpected (field : String)
  | noRelatedCollection (collection field : String)
  | unknownRelatedCollection (collection : String)
  | noRelatedField (field : String)
  | noCollectionField (field : String)
  | noRelation (field : String)
  -- the fit of operators and functions to fields
  | quantifierNotRelational (op : Operator) (field : String)
  | quantifierWithFunction (op : Operator) (field : String)
  | concealed (field : String)
  | toManyCompared (field : String)
  | noData (field : String)
  | jsonCompared (field : String)
  | needsText (op : Operator) (field : String) (type : FieldType)
  | needsOrder (op : Operator) (field : String) (type : FieldType)
  | functionMismatch (function : FieldFunction) (field : String) (type : FieldType)
  -- conditions inside JSON documents
  | functionInJson (field : String)
  | scopeInJson (segment : Segment) (field : String)
  | quantifierInJson (op : Operator) (field : String)
  | emptyGroup
  | emptyJsonPath (field : String)

namespace QueryError

/-- The text between back quotes. -/
def ticked (s : String) : String :=
  "`" ++ s ++ "`"

/-- The reason in words. -/
def reason : QueryError → String
  | filterNotObject got => "A filter must be an object, got " ++ ticked got.compact
  | tooDeep limit =>
      "Filter is nested deeper than " ++ String.ofList (Decimal.digitChars limit) ++ " levels"
  | fieldNotObject key got =>
      "Field " ++ ticked key ++ " expects an operator object, got " ++ ticked got.compact
  | groupNotArray key => ticked key ++ " expects an array of filters"
  | groupItemNotObject key got =>
      ticked key ++ " items must be objects, got " ++ ticked got.compact
  | operatorWithoutField key => "Operator " ++ ticked key ++ " must be nested under a field"
  | functionBeforeLast => "Functions are only allowed on the last field of a path"
  | quantifierTooDeep key =>
      ticked key ++ " is only allowed directly under a top-level relational field"
  | quantifierNotObject key => ticked key ++ " expects a filter object"
  | unbalancedClose key => "Unbalanced `)` in " ++ ticked key
  | unbalancedOpen key => "Unbalanced `(` in " ++ ticked key
  | malformedSegment segment => "Malformed field path segment " ++ ticked segment
  | unknownFunction name => "Unknown function " ++ ticked name
  | functionOfPath name argument =>
      "Function " ++ ticked name ++ " takes a single field, got " ++ ticked argument
  | nothingToMatch c => ticked c.key ++ " needs a value to match"
  | quantifierOnValue q => ticked q.key ++ " takes a sub-filter, not a comparison value"
  | emptyPath => "Empty field path"
  | unknownCollection collection => "Collection " ++ ticked collection ++ " does not exist"
  | unknownField field collection =>
      "Field " ++ ticked field ++ " does not exist in collection " ++ ticked collection
  | malformedJsonReference field => "Malformed reference to JSON field " ++ ticked field
  | indexOutsideJson field =>
      "Index access on " ++ ticked field ++ " is only allowed inside JSON fields"
  | notRelation field collection =>
      "Field " ++ ticked field ++ " of " ++ ticked collection ++ " is not a relation"
  | scopeMissing field =>
      "Any-to-many field " ++ ticked field ++ " needs a collection scope, e.g. " ++
        ticked (field ++ ":<collection>")
  | scopeNotAllowed scope field =>
      "Collection " ++ ticked scope ++ " is not allowed for " ++ ticked field
  | scopeUnexpected field =>
      "Collection scope on " ++ ticked field ++ " requires an any-to-many relation"
  | noRelatedCollection collection field =>
      "Relation " ++ ticked (collection ++ "." ++ field) ++ " has no related collection"
  | unknownRelatedCollection collection =>
      "Related collection " ++ ticked collection ++ " does not exist"
  | noRelatedField field => "Relation " ++ ticked field ++ " has no related field"
  | noCollectionField field =>
      "Any-to-many relation " ++ ticked field ++ " has no collection field"
  | noRelation field => "Field " ++ ticked field ++ " has no relation to filter through"
  | quantifierNotRelational op field =>
      ticked op.key ++ " can only be used on relational fields, " ++ ticked field ++ " is not one"
  | quantifierWithFunction op field =>
      ticked op.key ++ " cannot be combined with a function on " ++ ticked field
  | concealed field => "Concealed field " ++ ticked field ++ " only supports null checks"
  | toManyCompared field =>
      "To-many field " ++ ticked field ++
        " must be filtered with `_some`, `_none` or a nested field"
  | noData field => "Field " ++ ticked field ++ " holds no data and cannot be filtered"
  | jsonCompared field =>
      "JSON field " ++ ticked field ++
        " can only be null-checked directly; filter on a path inside it"
  | needsText op field type =>
      ticked op.key ++ " needs a text field, " ++ ticked field ++ " is " ++ type.name
  | needsOrder op field type =>
      ticked op.key ++ " needs an ordered field, " ++ ticked field ++ " is " ++ type.name
  | functionMismatch function field type =>
      "Function " ++ ticked function.name ++ " cannot be applied to " ++ ticked field ++
        " of type " ++ type.name
  | functionInJson field => "Functions are not supported inside JSON field " ++ ticked field
  | scopeInJson segment field =>
      "Collection scope " ++ ticked segment.stepName ++ " is not allowed inside JSON field " ++
        ticked field
  | quantifierInJson op field =>
      ticked op.key ++ " cannot be used inside JSON field " ++ ticked field
  | emptyGroup => "Cannot merge an empty group of conditions"
  | emptyJsonPath field => "Empty path inside JSON field " ++ ticked field

/-- The message shown to the caller. -/
def message (e : QueryError) : String :=
  "Invalid query: " ++ e.reason

end QueryError
end RowFilter
