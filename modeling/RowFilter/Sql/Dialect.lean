import RowFilter.Decimal.Layout
import RowFilter.Sql.Expr

/-!
# SQL dialects

What a dialect decides: how names are quoted, what placeholders look like, and
which functions read JSON documents and dates.
-/

namespace RowFilter
namespace Sql

/-- A database whose SQL is written. -/
inductive Dialect where
  | postgres
  | mysql
deriving DecidableEq

/-- The text with every occurrence of `q` doubled. -/
def doubled (q : Char) (s : String) : List Char :=
  s.toList.flatMap fun c => if c == q then [c, c] else [c]

/-- The text in quotes `q`, which are doubled inside. -/
def inQuotes (q : Char) (s : String) : String :=
  String.ofList (q :: (doubled q s ++ [q]))

/-- A string literal. -/
def stringLiteral (s : String) : String :=
  inQuotes '\'' s

/-- The text with quotes and backslashes escaped, as inside a quoted member of a
JSON path. -/
def escapedMember (s : String) : String :=
  String.ofList (s.toList.flatMap fun c => if c == '"' || c == '\\' then ['\\', c] else [c])

/-- What stands before and after a part of a statement. -/
structure Frame where
  opening : String
  closing : String

/-- The text in the frame. -/
def Frame.around (f : Frame) (text : String) : String :=
  f.opening ++ text ++ f.closing

namespace Dialect

/-- The name of the database. -/
def name : Dialect → String
  | .postgres => "PostgreSQL"
  | .mysql => "MySQL"

/-- The quote around identifiers. -/
def identifierQuote : Dialect → Char
  | .postgres => '"'
  | .mysql => Char.ofNat 0x60

/-- An identifier in quotes. -/
def quoted (d : Dialect) (s : String) : String :=
  inQuotes d.identifierQuote s

/-- The placeholder of the parameter at a position, counted from zero. -/
def placeholder : Dialect → Nat → String
  | .postgres, index => "$" ++ String.ofList (Decimal.digitChars (index + 1))
  | .mysql, _ => "?"

/-- The name of a cast's target type. -/
def castType : Dialect → CastType → String
  | .postgres, .numeric => "NUMERIC"
  | .postgres, .text => "TEXT"
  | .mysql, .numeric => "DECIMAL(65, 10)"
  | .mysql, .text => "CHAR"

/-- The function that gives one row for each match of a JSON path, around its
arguments. -/
def jsonRows : Dialect → Frame
  | .postgres => ⟨"jsonb_path_query(", ")"⟩
  | .mysql => ⟨"JSON_TABLE(", " COLUMNS (`value` JSON PATH '$'))"⟩

/-- What stands around a placeholder for a JSON path, if the dialect takes one. -/
def boundPath? : Dialect → Option Frame
  | .postgres => some ⟨"CAST(", " AS jsonpath)"⟩
  | .mysql => none

/-- The text of a JSON row. -/
def rowText : Dialect → String → String
  | .postgres, row => row ++ " #>> '\x7b\x7d'"
  | .mysql, row => "JSON_UNQUOTE(" ++ row ++ ".`value`)"

/-- The text of a member of a JSON row, around the key. -/
def memberText : Dialect → String → Frame
  | .postgres, row => ⟨row ++ " ->> ", ""⟩
  | .mysql, row =>
      ⟨"JSON_UNQUOTE(JSON_EXTRACT(" ++ row ++ ".`value`, CONCAT('$.\"', ", ", '\"')))"⟩

/-- The form in which a member's key is bound. -/
def memberKey : Dialect → String → String
  | .postgres, key => key
  | .mysql, key => escapedMember key

/-- The function for the length of a JSON array. -/
def arrayLength : Dialect → String
  | .postgres => "jsonb_array_length"
  | .mysql => "JSON_LENGTH"

/-- The name of a date part. -/
def datePartName : Dialect → DatePart → String
  | _, .year => "YEAR"
  | _, .month => "MONTH"
  | _, .week => "WEEK"
  | .postgres, .day => "DAY"
  | .mysql, .day => "DAYOFMONTH"
  | .postgres, .weekday => "DOW"
  | .mysql, .weekday => "DAYOFWEEK"
  | _, .hour => "HOUR"
  | _, .minute => "MINUTE"
  | _, .second => "SECOND"

/-- The extraction of a date part, around the date. -/
def datePart (d : Dialect) (part : DatePart) : Frame :=
  match d with
  | .postgres => ⟨"EXTRACT(" ++ d.datePartName part ++ " FROM ", ")"⟩
  | .mysql => ⟨d.datePartName part ++ "(", ")"⟩

end Dialect
end Sql
end RowFilter
