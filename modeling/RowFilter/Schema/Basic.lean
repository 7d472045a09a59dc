import RowFilter.FieldType
import RowFilter.Specials

/-!
# Schemas

A schema declares collections with their fields, and relations between
collections.  Names are unique among the collections and among the fields of a
collection; the first relation declared on a field counts.
-/

namespace RowFilter

/-- How many rows a relation leads to, and how it is stored. -/
inductive Cardinality where
  /-- The field holds the key of a row of the related collection. -/
  | manyToOne
  /-- Rows of the related collection point back through the related field. -/
  | oneToMany
  /-- Rows of a collection chosen by the caller point back through the related
  field, and name the collection that they point to. -/
  | anyToMany
deriving DecidableEq

/-- Following the relation can lead to more than one row. -/
def Cardinality.leadsToMany : Cardinality → Bool
  | .manyToOne => false
  | .oneToMany => true
  | .anyToMany => true

/-- A field of a collection. -/
structure Field where
  type : FieldType
  specials : Specials
deriving DecidableEq

/-- A collection with its primary key. -/
structure Collection where
  primary : String
  fields : List (String × Field)
deriving DecidableEq

/-- A relation declared on a field. -/
structure Relation where
  collection : String
  field : String
  relatedCollection : Option String
  relatedField : Option String
  /-- The field of the related rows that names the collection they point to. -/
  collectionField : Option String
  /-- The collections that a caller may choose; none listed means any. -/
  allowed : List String
  cardinality : Cardinality
deriving DecidableEq

/-- Collections and the relations between them. -/
structure Schema where
  collections : List (String × Collection)
  relations : List Relation
deriving DecidableEq

namespace Schema

/-- The collection with a given name. -/
def collection? (schema : Schema) (name : String) : Option Collection :=
  schema.collections.lookup name

/-- The field of a collection. -/
def field? (schema : Schema) (collection field : String) : Option Field :=
  (schema.collection? collection).bind (·.fields.lookup field)

/-- The relation declared on a field. -/
def relation? (schema : Schema) (collection field : String) : Option Relation :=
  schema.relations.find? fun r => r.collection == collection && r.field == field

end Schema
end RowFilter
