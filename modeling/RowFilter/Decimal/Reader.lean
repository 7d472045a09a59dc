import RowFilter.Double

/-!
# Reading numbers from text

Integers are an optional sign and decimal digits.  Decimals are an optional
sign, digits with at most one point and at least one digit, and an optional
power of ten; the words `inf`, `infinity` and `nan` are read in any letter case.
Nothing may stand before or after the number.
-/

namespace RowFilter
namespace Decimal

/-- An ASCII digit. -/
def isDigit (c : Char) : Bool :=
  '0' ≤ c && c ≤ '9'

/-- The value of a row of digits. -/
def digitsValue (cs : List Char) : Nat :=
  cs.foldl (fun n c => 10 * n + (c.toNat - '0'.toNat)) 0

/-- A non-empty row of digits and nothing else. -/
def readDigits? (cs : List Char) : Option Nat :=
  if cs ≠ [] && cs.all isDigit then some (digitsValue cs) else none

/-- Splits off a sign; true stands for minus. -/
def splitSign : List Char → Bool × List Char
  | '-' :: cs => (true, cs)
  | '+' :: cs => (false, cs)
  | cs => (false, cs)

/-- A natural below 2^64, with an optional plus sign. -/
def readIndex? (cs : List Char) : Option Nat :=
  let body :=
    match cs with
    | '+' :: rest => rest
    | _ => cs
  match readDigits? body with
  | some n => if n < Nat.pow 2 64 then some n else none
  | none => none

/-- The integer is written with 64 bits. -/
def fitsInt64 (i : Int) : Bool :=
  -(Nat.pow 2 63 : Int) ≤ i && i < Nat.pow 2 63

/-- An integer of 64 bits with an optional sign. -/
def readInt? (cs : List Char) : Option Int :=
  let (negative, body) := splitSign cs
  match readDigits? body with
  | some n =>
      let i : Int := if negative then -(n : Int) else n
      if fitsInt64 i then some i else none
  | none => none

/-- The exponent after the digits: absent, or the mark `e` with a signed row of
digits. -/
def readExponent? : List Char → Option Int
  | [] => some 0
  | c :: cs =>
      if c == 'e' || c == 'E' then
        let (negative, body) := splitSign cs
        (readDigits? body).map fun n => if negative then -(n : Int) else n
      else
        none

/-- The digits after the point, if there is a point, and what follows them. -/
def splitFraction : List Char → List Char × List Char
  | '.' :: cs => (cs.takeWhile isDigit, cs.dropWhile isDigit)
  | cs => ([], cs)

/-- Digits with an optional point and power of ten. -/
def readUnsigned? (negative : Bool) (cs : List Char) : Option Double :=
  let whole := cs.takeWhile isDigit
  let (fraction, rest) := splitFraction (cs.dropWhile isDigit)
  if whole.isEmpty && fraction.isEmpty then
    none
  else
    (readExponent? rest).map fun e =>
      Double.ofDecimal negative (digitsValue (whole ++ fraction)) (e - fraction.length)

/-- A double from its text. -/
def readDouble? (cs : List Char) : Option Double :=
  let (negative, body) := splitSign cs
  let word := body.map Char.toLower
  if word = "inf".toList || word = "infinity".toList then
    some (Double.infinity negative)
  else if word = "nan".toList then
    some Double.nan
  else
    readUnsigned? negative body

end Decimal
end RowFilter
