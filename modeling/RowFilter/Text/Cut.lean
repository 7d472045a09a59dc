/-!
# Cutting texts

Cuts a text at the first or the last occurrence of a character, or takes a
character off its end.
-/

namespace RowFilter
namespace Text

/-- What stands before and after the first `c`, if there is one. -/
def cutFirst? (c : Char) : List Char → Option (List Char × List Char)
  | [] => none
  | x :: rest =>
      if x == c then
        some ([], rest)
      else
        (cutFirst? c rest).map fun (before, after) => (x :: before, after)

/-- What stands before and after the last `c`, if there is one. -/
def cutLast? (c : Char) (cs : List Char) : Option (List Char × List Char) :=
  (cutFirst? c cs.reverse).map fun (after, before) => (before.reverse, after.reverse)

/-- The text without its last character, if that is `c`. -/
def stripLast? (c : Char) (cs : List Char) : Option (List Char) :=
  if cs.getLast? == some c then some cs.dropLast else none

end Text
end RowFilter
