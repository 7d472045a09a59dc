import RowFilter.Decimal.Reader
import RowFilter.QueryError
import RowFilter.Text.Blank
import RowFilter.Text.Cut

/-!
# Field keys

A key spells a field path: segments with dots between them.  A segment is a
field name, possibly followed by a colon and a collection, and by a position in
brackets; a function is written around it.  Dots inside parentheses do not
separate segments.
-/

namespace RowFilter
namespace FieldPath

/-- Puts a character in front of the first part. -/
def consHead (c : Char) : List (List Char) → List (List Char)
  | [] => [[c]]
  | part :: parts => (c :: part) :: parts

/-- The parts of a key between the dots outside parentheses, of which `depth`
are open. -/
def splitKey (key : String) : Nat → List Char → Except QueryError (List (List Char))
  | depth, [] => if depth = 0 then .ok [[]] else .error (.unbalancedOpen key)
  | depth, c :: cs =>
      if c = '(' then
        (splitKey key (depth + 1) cs).map (consHead c)
      else if c = ')' then
        if depth = 0 then
          .error (.unbalancedClose key)
        else
          (splitKey key (depth - 1) cs).map (consHead c)
      else if c = '.' ∧ depth = 0 then
        (splitKey key 0 cs).map ([] :: ·)
      else
        (splitKey key depth cs).map (consHead c)

/-- Takes the function off a segment: the function, and what it is applied to. -/
def splitFunction (raw : List Char) :
    Except QueryError (Option FieldFunction × List Char) :=
  match Text.cutFirst? '(' raw with
  | none => .ok (none, raw)
  | some (name, rest) =>
      match Text.stripLast? ')' rest with
      | none => .error (.malformedSegment (String.ofList raw))
      | some inner =>
          match FieldFunction.ofName? (String.ofList name) with
          | none => .error (.unknownFunction (String.ofList name))
          | some function =>
              if '.' ∈ inner then
                .error (.functionOfPath (String.ofList name) (String.ofList inner))
              else
                .ok (some function, inner)

/-- Takes the position in brackets off the end of a segment: what stands before
it, and the position as it is written. -/
def splitIndex (inner : List Char) : List Char × Option (List Char) :=
  match (Text.stripLast? ']' inner).bind (Text.cutLast? '[') with
  | some (rest, position) => (rest, some position)
  | none => (inner, none)

/-- Takes the scope off a segment. -/
def splitScope (inner : List Char) : List Char × Option (List Char) :=
  match Text.cutFirst? ':' inner with
  | some (name, scope) => (name, some scope)
  | none => (inner, none)

/-- A parenthesis or a bracket. -/
def isBracket (c : Char) : Bool :=
  c == '(' || c == ')' || c == '[' || c == ']'

/-- Reads a position. -/
def readIndex (raw : List Char) : Option (List Char) → Except QueryError (Option Nat)
  | none => .ok none
  | some position =>
      match Decimal.readIndex? (Text.trim position) with
      | some n => .ok (some n)
      | none => .error (.malformedSegment (String.ofList raw))

/-- Reads one segment. -/
def readSegment (part : List Char) : Except QueryError Segment := do
  let raw := Text.trim part
  let (function, inner) ← splitFunction raw
  let (rest, position) := splitIndex inner
  let index ← readIndex raw position
  let (name, scope) := splitScope rest
  if name.isEmpty || scope == some [] || name.any isBracket then
    .error (.malformedSegment (String.ofList raw))
  else
    .ok {
      name := String.ofList name
      scope := scope.map String.ofList
      function := function
      index := index }

/-- Reads a field key. -/
def ofKey (key : String) : Except QueryError (List Segment) := do
  (← splitKey key 0 key.toList).mapM readSegment

end FieldPath
end RowFilter
