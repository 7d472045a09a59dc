import RowFilter.Decimal.Reader
import RowFilter.Json.Basic

/-!
# Reading JSON text

`Json.scan?` reads a text by the JSON grammar and keeps every member, repeated
names included.  `Json.read?` also asks that every value denotes something and
resolves repeated names.

A value can be well formed and denote nothing: a number beyond the largest
double, a string with half of a surrogate pair, or an object with such a string
as the name of a member.  Scanning leaves a number that is not finite in its
place, so whoever skips the value never meets it and whoever reads it finds no
text, integer, record or document there.

The recursion is bounded by the length of the text: each value takes at least
one character.
-/

namespace RowFilter
namespace Json

/-- The blanks of the JSON grammar. -/
def isSpace (c : Char) : Bool :=
  c == ' ' || c == '\n' || c == '\r' || c == '\t'

/-- The text after leading blanks. -/
def skipSpace (cs : List Char) : List Char :=
  cs.dropWhile isSpace

/-- The value of a hexadecimal digit. -/
def hexValue? (c : Char) : Option Nat :=
  if Decimal.isDigit c then some (c.toNat - '0'.toNat)
  else if 'a' ≤ c && c ≤ 'f' then some (c.toNat - 'a'.toNat + 10)
  else if 'A' ≤ c && c ≤ 'F' then some (c.toNat - 'A'.toNat + 10)
  else none

/-- The value of four hexadecimal digits. -/
def hexQuad? (a b c d : Char) : Option Nat := do
  return (((← hexValue? a) * 16 + (← hexValue? b)) * 16 + (← hexValue? c)) * 16 + (← hexValue? d)

/-- The character of an escape of one letter. -/
def simpleEscape? (c : Char) : Option Char :=
  if c == '"' || c == '\\' || c == '/' then some c
  else if c == 'n' then some '\n'
  else if c == 'r' then some '\r'
  else if c == 't' then some '\t'
  else if c == 'b' then some (Char.ofNat 8)
  else if c == 'f' then some (Char.ofNat 12)
  else none

/-- First half of a surrogate pair. -/
def isHighSurrogate (n : Nat) : Bool :=
  0xD800 ≤ n && n < 0xDC00

/-- Second half of a surrogate pair. -/
def isLowSurrogate (n : Nat) : Bool :=
  0xDC00 ≤ n && n < 0xE000

/-- The rest of a string after its opening quote: the code points it is written
with, halves of surrogate pairs among them, and the text after its closing
quote. -/
def scanString : List Char → Option (List Nat × List Char)
  | [] => none
  | '"' :: rest => some ([], rest)
  | '\\' :: 'u' :: a :: b :: c :: d :: rest =>
      match hexQuad? a b c d with
      | some n => (scanString rest).map fun (points, after) => (n :: points, after)
      | none => none
  | '\\' :: c :: rest =>
      match simpleEscape? c with
      | some x => (scanString rest).map fun (points, after) => (x.toNat :: points, after)
      | none => none
  | c :: rest =>
      if c == '\\' || c.toNat < 0x20 then
        none
      else
        (scanString rest).map fun (points, after) => (c.toNat :: points, after)

/-- The characters of a row of code points: two halves of a pair make one
character, and half of a pair on its own makes none. -/
def pairSurrogates : List Nat → Option (List Char)
  | [] => some []
  | m :: n :: rest =>
      if isHighSurrogate m && isLowSurrogate n then
        (pairSurrogates rest).map (Char.ofNat (0x10000 + (m - 0xD800) * 0x400 + (n - 0xDC00)) :: ·)
      else if isHighSurrogate m || isLowSurrogate m then
        none
      else
        (pairSurrogates (n :: rest)).map (Char.ofNat m :: ·)
  | [m] =>
      if isHighSurrogate m || isLowSurrogate m then none else some [Char.ofNat m]

/-- The number written by an integer literal: an integer if it has 64 bits, else
the nearest double.  Minus zero is a double. -/
def Number.ofLiteral (negative : Bool) (n : Nat) : Number :=
  if negative then
    if n ≠ 0 && n ≤ Nat.pow 2 63 then .int (-n) else .float (Double.ofDecimal true n 0)
  else
    if n < Nat.pow 2 64 then .int n else .float (Double.ofDecimal false n 0)

/-- The digits of a number before its point: a zero stands alone. -/
def splitWhole (cs : List Char) : Option (List Char × List Char) :=
  match cs with
  | '0' :: rest => some (['0'], rest)
  | _ =>
      let whole := cs.takeWhile Decimal.isDigit
      if whole.isEmpty then none else some (whole, cs.dropWhile Decimal.isDigit)

/-- The digits after a point; a point without a digit is refused. -/
def splitPoint (cs : List Char) : Option (List Char × List Char) :=
  match cs with
  | '.' :: rest =>
      let fraction := rest.takeWhile Decimal.isDigit
      if fraction.isEmpty then none else some (fraction, rest.dropWhile Decimal.isDigit)
  | _ => some ([], cs)

/-- The power of ten after the digits, if one is written. -/
def splitPower (cs : List Char) : Option (Option Int × List Char) :=
  match cs with
  | c :: rest =>
      if c == 'e' || c == 'E' then
        let (negative, body) := Decimal.splitSign rest
        let digits := body.takeWhile Decimal.isDigit
        let n : Int := Decimal.digitsValue digits
        if digits.isEmpty then none
        else some (some (if negative then -n else n), body.dropWhile Decimal.isDigit)
      else
        some (none, cs)
  | [] => some (none, cs)

/-- A number literal and the text after it. -/
def scanNumber (cs : List Char) : Option (Number × List Char) := do
  let (negative, body) :=
    match cs with
    | '-' :: rest => (true, rest)
    | _ => (false, cs)
  let (whole, afterWhole) ← splitWhole body
  let (fraction, afterPoint) ← splitPoint afterWhole
  let (power, after) ← splitPower afterPoint
  if fraction.isEmpty && power.isNone then
    return (Number.ofLiteral negative (Decimal.digitsValue whole), after)
  else
    let digits := Decimal.digitsValue (whole ++ fraction)
    return (.float (Double.ofDecimal negative digits (power.getD 0 - fraction.length)), after)

/-- Stands where a value denotes nothing. -/
def undenoted : Json :=
  .num (.float Double.nan)

/-- The text written with a row of code points, if they make one. -/
def textOf? (points : List Nat) : Option String :=
  (pairSurrogates points).map String.ofList

/-- The string written with a row of code points. -/
def ofPoints (points : List Nat) : Json :=
  match textOf? points with
  | some s => .str s
  | none => undenoted

/-- The object with the given members; it denotes nothing if one of their names
is no text. -/
def ofMembers (members : List (Option String × Json)) : Json :=
  match members.mapM fun m => m.1.map fun name => (name, m.2) with
  | some named => .obj named
  | none => undenoted

mutual

/-- A value and the text after it. -/
def scanValue : Nat → List Char → Option (Json × List Char)
  | 0, _ => none
  | limit + 1, cs =>
      match skipSpace cs with
      | '\x7b' :: rest =>
          match skipSpace rest with
          | '\x7d' :: after => some (.obj [], after)
          | body => (scanMembers limit body).map fun (ms, after) => (ofMembers ms, after)
      | '[' :: rest =>
          match skipSpace rest with
          | ']' :: after => some (.arr [], after)
          | body => (scanItems limit body).map fun (items, after) => (.arr items, after)
      | '"' :: rest => (scanString rest).map fun (points, after) => (ofPoints points, after)
      | 'n' :: 'u' :: 'l' :: 'l' :: after => some (.null, after)
      | 't' :: 'r' :: 'u' :: 'e' :: after => some (.bool true, after)
      | 'f' :: 'a' :: 'l' :: 's' :: 'e' :: after => some (.bool false, after)
      | body => (scanNumber body).map fun (n, after) => (.num n, after)

/-- The items of an array up to its closing bracket. -/
def scanItems : Nat → List Char → Option (List Json × List Char)
  | 0, _ => none
  | limit + 1, cs => do
      let (item, rest) ← scanValue limit cs
      match skipSpace rest with
      | ',' :: more =>
          let (items, after) ← scanItems limit more
          return (item :: items, after)
      | ']' :: after => return ([item], after)
      | _ => none

/-- The members of an object up to its closing brace, with the names that are
texts. -/
def scanMembers : Nat → List Char → Option (List (Option String × Json) × List Char)
  | 0, _ => none
  | limit + 1, cs =>
      match skipSpace cs with
      | '"' :: rest => do
          let (points, afterName) ← scanString rest
          match skipSpace afterName with
          | ':' :: body =>
              let (value, rest) ← scanValue limit body
              match skipSpace rest with
              | ',' :: more =>
                  let (members, after) ← scanMembers limit more
                  return ((textOf? points, value) :: members, after)
              | '\x7d' :: after => return ([(textOf? points, value)], after)
              | _ => none
          | _ => none
      | _ => none

end

/-- The document written by a text, repeated members kept. -/
def scan? (text : String) : Option Json :=
  let cs := text.toList
  match scanValue (2 * cs.length + 2) cs with
  | some (j, after) => if (skipSpace after).isEmpty then some j else none
  | none => none

/-- The number is finite, as every number of a document is. -/
def Number.isReadable : Number → Bool
  | .int _ => true
  | .float x => x.isFinite

mutual

/-- Everything in the document denotes something. -/
def isReadable : Json → Bool
  | .num n => n.isReadable
  | .arr items => areReadable items
  | .obj members => membersAreReadable members
  | _ => true

def areReadable : List Json → Bool
  | [] => true
  | j :: rest => isReadable j && areReadable rest

def membersAreReadable : List (String × Json) → Bool
  | [] => true
  | (_, j) :: rest => isReadable j && membersAreReadable rest

end

/-- The document written by a text. -/
def read? (text : String) : Option Json :=
  match scan? text with
  | some j => if j.isReadable then some j.resolveRepeats else none
  | none => none

end Json
end RowFilter
