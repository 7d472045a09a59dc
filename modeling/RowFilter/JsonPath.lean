import RowFilter.Decimal.Layout
import RowFilter.FieldPath.Segment

/-!
# JSON paths

The text of a path into a JSON document.  A member is written as it is if it is
an identifier, else in quotes.  Between members the elements of an array are
walked one by one, unless a position is given.  A path with an open end also
walks the elements behind its last member.
-/

namespace RowFilter
namespace JsonPath

/-- A name that needs no quotes. -/
def isIdentifier : List Char → Bool
  | [] => false
  | c :: cs => (c.isAlpha || c == '_') && cs.all fun c => c.isAlphanum || c == '_'

/-- A character inside quotes. -/
def escapeChar (c : Char) : List Char :=
  if c == '"' || c == '\\' then ['\\', c] else [c]

theorem escapeChar_special
    {c : Char}
    (hc : c = '"' ∨ c = '\\') :
    escapeChar c = ['\\', c] := by
  simp [escapeChar, hc]

theorem escapeChar_plain
    {c : Char}
    (hc : ¬(c = '"' ∨ c = '\\')) :
    escapeChar c = [c] := by
  simp [escapeChar, hc]

/-- Access to a member. -/
def member (name : List Char) : List Char :=
  if isIdentifier name then
    '.' :: name
  else
    '.' :: '"' :: (name.flatMap escapeChar ++ ['"'])

/-- All elements of an array. -/
def elements : List Char :=
  ['[', '*', ']']

/-- One element of an array. -/
def element (n : Nat) : List Char :=
  '[' :: (Decimal.digitChars n ++ [']'])

/-- The steps of a path. -/
def steps (openEnd : Bool) : List Segment → List Char
  | [] => []
  | s :: rest =>
      let access :=
        match s.index with
        | some n => element n
        | none => if rest.isEmpty && !openEnd then [] else elements
      member s.name.toList ++ access ++ steps openEnd rest

/-- The characters of a path. -/
def chars (segments : List Segment) (openEnd : Bool) : List Char :=
  '$' :: ((if segments.isEmpty && openEnd then elements else []) ++ steps openEnd segments)

/-- The text of a path. -/
def text (segments : List Segment) (openEnd : Bool) : String :=
  String.ofList (chars segments openEnd)

end JsonPath
end RowFilter
