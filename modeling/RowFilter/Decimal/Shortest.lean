import RowFilter.Double

/-!
# Shortest decimals

A decimal stands for a double when it lies among the reals that round to it.
`Decimal.shortest` picks, among the decimals that stand for a double, one with
the fewest digits, and among those the nearest.

**Search.** For one digit, two digits and so on the two neighbours of the double
on that decimal grid are tried.  If any point of the grid stands for the double,
one of these neighbours does.
-/

namespace RowFilter

/-- The number `digits · 10^exponent`. -/
structure Decimal where
  digits : Nat
  exponent : Int
deriving DecidableEq

namespace Decimal

/-- Which of two equally near decimals is taken. -/
inductive Tie where
  | toEven
  | upward
deriving DecidableEq

/-- Compares `a · 10^i` with `b · 2^j`. -/
def compareScaled (a : Nat) (i : Int) (b : Nat) (j : Int) : Ordering :=
  compare (a * Nat.pow 10 i.toNat * Nat.pow 2 (-j).toNat)
    (b * Nat.pow 2 j.toNat * Nat.pow 10 (-i).toNat)

/-- The decimal lies among the reals that round to the magnitude of `x`: between
the midpoints to its neighbours, which belong to it when its significand is
even. -/
def standsFor (d : Decimal) (x : Double) : Bool :=
  let m := x.significand
  let low := if x.narrowBelow then 4 * m - 1 else 4 * m - 2
  let atLow := compareScaled d.digits d.exponent low (x.exponent - 2)
  let atHigh := compareScaled d.digits d.exponent (4 * m + 2) (x.exponent - 2)
  let closed := m % 2 == 0
  (atLow == .gt || (closed && atLow == .eq)) && (atHigh == .lt || (closed && atHigh == .eq))

/-- The magnitude of `x` divided by 10^e, rounded down. -/
def floorAt (x : Double) (e : Int) : Nat :=
  x.significand * Nat.pow 2 x.exponent.toNat * Nat.pow 10 (-e).toNat /
    (Nat.pow 2 (-x.exponent).toNat * Nat.pow 10 e.toNat)

/-- Of the neighbours of `x` on the grid 10^e, the one that stands for it; the
nearer if both do. -/
def onGrid? (tie : Tie) (x : Double) (e : Int) : Option Decimal :=
  let below := floorAt x e
  let lower : Decimal := ⟨below, e⟩
  let upper : Decimal := ⟨below + 1, e⟩
  match lower.standsFor x, upper.standsFor x with
  | true, true =>
      match compareScaled (2 * below + 1) e (2 * x.significand) x.exponent with
      | .gt => some lower
      | .lt => some upper
      | .eq =>
          match tie with
          | .upward => some upper
          | .toEven => some (if below % 2 == 0 then lower else upper)
  | true, false => some lower
  | false, true => some upper
  | false, false => none

/-- An exponent e with x < 10^e, for a finite `x`. -/
def scaleAbove (x : Double) : Int :=
  let bitLength : Int := (x.significand.log2 : Int) + 1 + x.exponent
  bitLength * 30103 / 100000 + 2

/-- Moves trailing zeros of the digits into the exponent, at most `n` of them. -/
def dropZeros : Nat → Decimal → Decimal
  | 0, d => d
  | n + 1, d =>
      if d.digits ≠ 0 && d.digits % 10 == 0 then
        dropZeros n ⟨d.digits / 10, d.exponent + 1⟩
      else
        d

/-- The exact value of the magnitude of a finite `x`. -/
def exact (x : Double) : Decimal :=
  ⟨x.significand * Nat.pow 2 x.exponent.toNat * Nat.pow 5 (-x.exponent).toNat, min x.exponent 0⟩

/-- A decimal with the fewest digits that stands for the magnitude of a finite
`x`, and the nearest of those. -/
def shortest (tie : Tie) (x : Double) : Decimal :=
  if x.isZero then
    ⟨0, 0⟩
  else
    let top := scaleAbove x
    let found := (List.range 24).findSome? fun (i : Nat) => onGrid? tie x (top - i)
    dropZeros 400 (found.getD (exact x))

end Decimal
end RowFilter
