import RowFilter.Text.Blank
import RowFilter.Text.Lower

/-!
# Field types

The declared type of a field, and the classes of types that operators and
functions ask for.
-/

namespace RowFilter

/-- The declared type of a field. -/
inductive FieldType where
  /-- A field without a column, called an alias in a schema. -/
  | virtual
  | bigInteger
  | binary
  | boolean
  | csv
  | date
  | dateTime
  | decimal
  | float
  | geometry
  | hash
  | integer
  | json
  | string
  | text
  | time
  | timestamp
  | uuid
  | unknown
deriving DecidableEq

namespace FieldType

/-- All types that a schema can declare by name. -/
def known : List FieldType :=
  [.virtual, .bigInteger, .binary, .boolean, .csv, .date, .dateTime, .decimal, .float,
    .geometry, .hash, .integer, .json, .string, .text, .time, .timestamp, .uuid]

/-- The name used in messages. -/
def name : FieldType → String
  | .virtual => "alias"
  | .bigInteger => "bigInteger"
  | .binary => "binary"
  | .boolean => "boolean"
  | .csv => "csv"
  | .date => "date"
  | .dateTime => "dateTime"
  | .decimal => "decimal"
  | .float => "float"
  | .geometry => "geometry"
  | .hash => "hash"
  | .integer => "integer"
  | .json => "json"
  | .string => "string"
  | .text => "text"
  | .time => "time"
  | .timestamp => "timestamp"
  | .uuid => "uuid"
  | .unknown => "unknown"

/-- The name in lower case, by which a type is looked up. -/
def lookupName : FieldType → String
  | .bigInteger => "biginteger"
  | .dateTime => "datetime"
  | t => t.name

/-- The name written into a schema document. -/
def schemaName : FieldType → String
  | .virtual => "Alias"
  | .bigInteger => "BigInteger"
  | .binary => "Binary"
  | .boolean => "Boolean"
  | .csv => "Csv"
  | .date => "Date"
  | .dateTime => "DateTime"
  | .decimal => "Decimal"
  | .float => "Float"
  | .geometry => "Geometry"
  | .hash => "Hash"
  | .integer => "Integer"
  | .json => "Json"
  | .string => "String"
  | .text => "Text"
  | .time => "Time"
  | .timestamp => "Timestamp"
  | .uuid => "Uuid"
  | .unknown => "Unknown"

/-- The type with a given name, in any letter case and with blanks around it.
Every other name is an unknown type. -/
def ofName (name : String) : FieldType :=
  let wanted := Text.lower (String.ofList (Text.trim name.toList))
  (known.find? (·.lookupName == wanted)).getD .unknown

/-- Types that patterns match. -/
def isText : FieldType → Bool
  | .string | .text | .csv | .hash | .uuid => true
  | _ => false

def isNumeric : FieldType → Bool
  | .bigInteger | .decimal | .float | .integer => true
  | _ => false

def isTemporal : FieldType → Bool
  | .date | .dateTime | .time | .timestamp => true
  | _ => false

/-- Temporal types with a calendar date. -/
def hasDate : FieldType → Bool
  | .date | .dateTime | .timestamp => true
  | _ => false

/-- Temporal types with a time of day. -/
def hasTime : FieldType → Bool
  | .dateTime | .time | .timestamp => true
  | _ => false

def isJson : FieldType → Bool
  | .json => true
  | _ => false

def isVirtual : FieldType → Bool
  | .virtual => true
  | _ => false

/-- Types with an order. -/
def isOrdered (t : FieldType) : Bool :=
  t.isNumeric || t.isTemporal || t.isText

/-- Every type is found by the name that a schema writes for it. -/
theorem ofName_schemaName
    (t : FieldType) :
    ofName t.schemaName = t := by
  cases t <;> decide +kernel

end FieldType
end RowFilter
