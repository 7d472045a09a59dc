/-!
# Double-precision numbers

A double is kept as its 64 bits: a sign, eleven exponent bits and 52 fraction
bits.  A finite double is m · 2^q for naturals m < 2^53 and an exponent q from
-1074 on, so everything here is exact arithmetic on naturals.

`Double.ofRatio` rounds a quotient of naturals to the nearest double, a tie to
the even one.  Reading a decimal and converting an integer both go through it.
-/

namespace RowFilter

/-- A double-precision number, by its bits. -/
structure Double where
  bits : UInt64
deriving DecidableEq

namespace Double

/-- The sign bit is set. -/
def isNegative (x : Double) : Bool :=
  x.bits.toNat ≥ Nat.pow 2 63

/-- The bits without the sign. -/
def magnitude (x : Double) : Nat :=
  x.bits.toNat % Nat.pow 2 63

/-- The bits of positive infinity; larger magnitudes are not numbers. -/
def infinityBits : Nat :=
  2047 * Nat.pow 2 52

/-- Neither an infinity nor a NaN. -/
def isFinite (x : Double) : Bool :=
  x.magnitude < infinityBits

/-- Not a number. -/
def isNaN (x : Double) : Bool :=
  x.magnitude > infinityBits

/-- Zero of either sign. -/
def isZero (x : Double) : Bool :=
  x.magnitude == 0

/-- The double with the given sign and magnitude bits. -/
def ofMagnitude (negative : Bool) (magnitude : Nat) : Double :=
  ⟨UInt64.ofNat (magnitude % Nat.pow 2 63 + if negative then Nat.pow 2 63 else 0)⟩

/-- Infinity of either sign. -/
def infinity (negative : Bool) : Double :=
  ofMagnitude negative infinityBits

/-- A NaN. -/
def nan : Double :=
  ofMagnitude false (infinityBits + Nat.pow 2 51)

/-- The significand m of a finite double m · 2^q. -/
def significand (x : Double) : Nat :=
  if x.magnitude < Nat.pow 2 52 then
    x.magnitude
  else
    Nat.pow 2 52 + x.magnitude % Nat.pow 2 52

/-- The exponent q of a finite double m · 2^q. -/
def exponent (x : Double) : Int :=
  if x.magnitude < Nat.pow 2 52 then
    -1074
  else
    (x.magnitude / Nat.pow 2 52 : Nat) - 1075

/-- The double below is half as far away as the double above. -/
def narrowBelow (x : Double) : Bool :=
  x.magnitude % Nat.pow 2 52 == 0 && x.magnitude ≥ Nat.pow 2 53

/-- The natural nearest to `num / den`, a tie to the even one. -/
def roundHalfEven (num den : Nat) : Nat :=
  let low := num / den
  let twice := 2 * (num % den)
  if twice < den then low
  else if den < twice then low + 1
  else low + low % 2

/-- The largest k with 2^k ≤ num / den, for positive naturals. -/
def floorLog2 (num den : Nat) : Int :=
  let k : Int := (num.log2 : Int) - den.log2
  if num * Nat.pow 2 (-k).toNat < den * Nat.pow 2 k.toNat then k - 1 else k

/-- The double nearest to `num / den` with the given sign; magnitudes beyond the
largest double become infinite. -/
def ofRatio (negative : Bool) (num den : Nat) : Double :=
  if num == 0 then
    ofMagnitude negative 0
  else
    let q : Int := max (floorLog2 num den - 52) (-1074)
    let m := roundHalfEven (num * Nat.pow 2 (-q).toNat) (den * Nat.pow 2 q.toNat)
    ofMagnitude negative (min ((q + 1074).toNat * Nat.pow 2 52 + m) infinityBits)

/-- The double nearest to an integer. -/
def ofInt (i : Int) : Double :=
  ofRatio (i < 0) i.natAbs 1

/-- The double nearest to `digits · 10^exponent` with the given sign.  Exponents
far outside the range of doubles are settled by the number of digits. -/
def ofDecimal (negative : Bool) (digits : Nat) (exponent : Int) : Double :=
  let leading : Int := (Nat.toDigits 10 digits).length + exponent
  if digits == 0 then ofMagnitude negative 0
  else if leading > 400 then infinity negative
  else if leading < -400 then ofMagnitude negative 0
  else ofRatio negative (digits * Nat.pow 10 exponent.toNat) (Nat.pow 10 (-exponent).toNat)

end Double
end RowFilter
