import RowFilter.Json.Reader
import RowFilter.Json.Record
import RowFilter.Schema.Basic

/-!
# Schemas as documents

Reading and writing of schemas.  A field's type may be any text; a type name or
a flag name that is not known is no mistake.
-/

namespace RowFilter

namespace Specials

/-- The flags listed in a document; null lists none. -/
def ofJson? : Json → Option Specials
  | .null => some (ofFlags [])
  | j => (Json.texts? j).map fun names => ofFlags (names.filterMap Flag.ofName?)

/-- The names of the flags. -/
def toJson (s : Specials) : Json :=
  .arr (s.flags.map fun f => .str f.name)

end Specials

namespace Cardinality

def name : Cardinality → String
  | .manyToOne => "many-to-one"
  | .oneToMany => "one-to-many"
  | .anyToMany => "any-to-many"

def ofName? : String → Option Cardinality
  | "many-to-one" => some .manyToOne
  | "one-to-many" => some .oneToMany
  | "any-to-many" => some .anyToMany
  | _ => none

/-- Every cardinality is found by its name. -/
theorem ofName?_name
    (c : Cardinality) :
    ofName? c.name = some c := by
  cases c <;> rfl

end Cardinality

namespace Field

/-- Reads a field. -/
def ofJson? (j : Json) : Option Field :=
  match Json.record? ["type", "special"] j with
  | some [some type, special] => do
      let type ← Json.text? type
      let specials ←
        match special with
        | some names => Specials.ofJson? names
        | none => some (Specials.ofFlags [])
      return ⟨FieldType.ofName type, specials⟩
  | _ => none

/-- Writes a field. -/
def toJson (f : Field) : Json :=
  .obj [("type", .str f.type.schemaName), ("special", f.specials.toJson)]

end Field

namespace Collection

/-- Reads a collection. -/
def ofJson? (j : Json) : Option Collection :=
  match Json.record? ["primary", "fields"] j with
  | some [some primary, some fields] => do
      return ⟨← Json.text? primary, ← Json.table? Field.ofJson? fields⟩
  | _ => none

/-- Writes a collection. -/
def toJson (c : Collection) : Json :=
  .obj [("primary", .str c.primary), ("fields", .obj (c.fields.map fun f => (f.1, f.2.toJson)))]

end Collection

namespace Relation

/-- The members of a relation. -/
def memberNames : List String :=
  ["collection", "field", "related_collection", "related_field", "collection_field",
    "allowed_collections", "cardinality"]

/-- Reads a relation. -/
def ofJson? (j : Json) : Option Relation :=
  match Json.record? memberNames j with
  | some [some collection, some field, relatedCollection, relatedField, collectionField,
      allowed, some cardinality] => do
      return {
        collection := ← Json.text? collection
        field := ← Json.text? field
        relatedCollection := ← Json.optionalText? relatedCollection
        relatedField := ← Json.optionalText? relatedField
        collectionField := ← Json.optionalText? collectionField
        allowed := ←
          match allowed with
          | some names => Json.texts? names
          | none => some []
        cardinality := ← (Json.choice? cardinality).bind Cardinality.ofName?
      }
  | _ => none

/-- Writes a relation. -/
def toJson (r : Relation) : Json :=
  .obj [
    ("collection", .str r.collection),
    ("field", .str r.field),
    ("related_collection", Json.ofText? r.relatedCollection),
    ("related_field", Json.ofText? r.relatedField),
    ("collection_field", Json.ofText? r.collectionField),
    ("allowed_collections", .arr (r.allowed.map .str)),
    ("cardinality", .str r.cardinality.name)]

end Relation

namespace Schema

/-- Reads the list of relations. -/
def relations? : Json → Option (List Relation)
  | .arr items => items.mapM Relation.ofJson?
  | _ => none

/-- Reads a schema. -/
def ofJson? (j : Json) : Option Schema :=
  match Json.record? ["collections", "relations"] j with
  | some [some collections, relations] => do
      let collections ← Json.table? Collection.ofJson? collections
      let relations ←
        match relations with
        | some list => relations? list
        | none => some []
      return ⟨collections, relations⟩
  | _ => none

/-- Reads a schema from text. -/
def ofText? (text : String) : Option Schema :=
  (Json.scan? text).bind ofJson?

/-- Writes a schema. -/
def toJson (s : Schema) : Json :=
  .obj [
    ("collections", .obj (s.collections.map fun c => (c.1, c.2.toJson))),
    ("relations", .arr (s.relations.map Relation.toJson))]

end Schema
end RowFilter
