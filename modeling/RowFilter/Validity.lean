import RowFilter.QueryError
import RowFilter.Schema.Basic

/-!
# Which operators fit which fields

Checked before a condition is built: the operator, the function applied to the
field, and the declared type and flags of the field must go together.
-/

namespace RowFilter

namespace Field

/-- The function gives a number for the field. -/
def allowsFunction (f : Field) (toMany : Bool) : FieldFunction → Bool
  | .count => toMany || f.type.isJson
  | function => if function.readsTime then f.type.hasTime else f.type.hasDate

/-- The type that an operator compares: a number if a function is applied, else
the type of the field, which must hold a value of its own. -/
def comparedType (f : Field) (name : String) (relation : Option Relation)
    (function : Option FieldFunction) (op : Operator) : Except QueryError FieldType :=
  let toMany := relation.any (·.cardinality.leadsToMany)
  match function with
  | some function =>
      if f.allowsFunction toMany function then
        .ok .integer
      else
        .error (.functionMismatch function name f.type)
  | none =>
      if toMany then .error (.toManyCompared name)
      else if f.type.isVirtual && relation.isNone then .error (.noData name)
      else if f.type.isJson && !op.asksPresence then .error (.jsonCompared name)
      else .ok f.type

/-- Checks an operator on a field with a name, a relation and a function. -/
def check (f : Field) (name : String) (relation : Option Relation)
    (function : Option FieldFunction) (op : Operator) : Except QueryError Unit :=
  if op.isQuantified then
    if !(relation.isSome || f.specials.standsForRelation) then
      .error (.quantifierNotRelational op name)
    else if function.isSome then
      .error (.quantifierWithFunction op name)
    else
      .ok ()
  else if f.specials.conceal && !op.asksPresence then
    .error (.concealed name)
  else do
    let type ← f.comparedType name relation function op
    if op.isPattern && !type.isText then
      .error (.needsText op name type)
    else if op.needsOrder && !type.isOrdered then
      .error (.needsOrder op name type)
    else
      .ok ()

end Field

/-- Checks an operator on a path inside the document of a JSON field. -/
def checkJsonPath (field : String) (rest : List Segment) (op : Operator) :
    Except QueryError Unit :=
  if rest.any (·.function.isSome) then
    .error (.functionInJson field)
  else
    match rest.find? (·.scope.isSome) with
    | some segment => .error (.scopeInJson segment field)
    | none =>
        if op.isQuantified then .error (.quantifierInJson op field) else .ok ()

end RowFilter
