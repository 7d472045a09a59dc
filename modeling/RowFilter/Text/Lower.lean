import RowFilter.Text.CaseTable

/-!
# Lower-casing

Full lower-casing of a text.  Two characters need more than a table from
characters to characters: U+0130 becomes two characters, and the capital sigma
becomes a final sigma at the end of a word.  A sigma ends a word when, leaving
out ignored characters, a cased character stands before it and none after it.
-/

namespace RowFilter
namespace Text

/-- Cased characters other than ignored ones. -/
def isCased (c : Char) : Bool :=
  casedRanges.any (·.contains c.toNat)

/-- Characters that do not separate a letter from its neighbours. -/
def isCaseIgnored (c : Char) : Bool :=
  ignoredRanges.any (·.contains c.toNat)

/-- The next character that is not ignored is cased. -/
def meetsCased (cs : List Char) : Bool :=
  match cs.dropWhile isCaseIgnored with
  | [] => false
  | c :: _ => isCased c

/-- The lower-case form of a character on its own. -/
def lowerChar (c : Char) : Char :=
  if c.toNat < 0x80 then
    c.toLower
  else
    match lowerRuns.findSome? (·.lower? c.toNat) with
    | some n => Char.ofNat n
    | none => c

/-- Lower-cases `cs`, where `before` holds the characters in front of it, the
nearest first. -/
def lowerFrom : List Char → List Char → List Char
  | _, [] => []
  | before, c :: cs =>
      let form :=
        if c == 'Σ' then
          if meetsCased before && !meetsCased cs then ['ς'] else ['σ']
        else if c == 'İ' then
          ['i', Char.ofNat 0x0307]
        else
          [lowerChar c]
      form ++ lowerFrom (c :: before) cs

/-- The text in lower case. -/
def lower (s : String) : String :=
  String.ofList (lowerFrom [] s.toList)

end Text
end RowFilter
