import RowFilter.Decimal.Shortest

/-!
# Decimal text of doubles

A layout says how the digits of a double are written: for which exponents the
point is put among the digits, whether an integral value keeps a zero after the
point, and how the values that are not finite are called.
-/

namespace RowFilter
namespace Decimal

/-- How a double is written. -/
structure Layout where
  /-- The least exponent of the leading digit that is written positionally. -/
  plainFrom : Option Int
  /-- The exponent of the leading digit from which powers of ten are written. -/
  plainBelow : Option Int
  /-- An integral value is written with `.0`. -/
  pointZero : Bool
  /-- Which of two equally near decimals is taken. -/
  tie : Tie
  nan : String
  infinity : String

/-- The decimal digits of a natural. -/
def digitChars (n : Nat) : List Char :=
  Nat.toDigits 10 n

/-- The decimal text of an integer. -/
def intChars (i : Int) : List Char :=
  if i < 0 then '-' :: digitChars i.natAbs else digitChars i.natAbs

/-- Digits with the point in its place: `point` digits stand before it. -/
def positional (pointZero : Bool) (digits : List Char) (point : Int) : List Char :=
  if point ≤ 0 then
    '0' :: '.' :: (List.replicate (-point).toNat '0' ++ digits)
  else if digits.length ≤ point.toNat then
    digits ++ List.replicate (point.toNat - digits.length) '0' ++
      (if pointZero then ['.', '0'] else [])
  else
    digits.take point.toNat ++ '.' :: digits.drop point.toNat

/-- Digits with a power of ten; a positive exponent carries its sign. -/
def scientific (digits : List Char) (exponent : Int) : List Char :=
  let mantissa :=
    match digits with
    | d :: e :: rest => d :: '.' :: e :: rest
    | short => short
  mantissa ++ 'e' :: (if exponent < 0 then intChars exponent else '+' :: intChars exponent)

namespace Layout

/-- Exponents of the leading digit that are written positionally. -/
def isPlain (layout : Layout) (e : Int) : Bool :=
  layout.plainFrom.all (· ≤ e) && layout.plainBelow.all (e < ·)

/-- The text of a decimal. -/
def decimalChars (layout : Layout) (d : Decimal) : List Char :=
  let digits := digitChars d.digits
  let leading : Int := d.exponent + digits.length - 1
  if layout.isPlain leading then
    positional layout.pointZero digits (leading + 1)
  else
    scientific digits leading

/-- The text of a double. -/
def text (layout : Layout) (x : Double) : String :=
  if x.isNaN then
    layout.nan
  else
    let sign := if x.isNegative then "-" else ""
    if x.isFinite then
      sign ++ String.ofList (layout.decimalChars (shortest layout.tie x))
    else
      sign ++ layout.infinity

end Layout
end Decimal
end RowFilter
