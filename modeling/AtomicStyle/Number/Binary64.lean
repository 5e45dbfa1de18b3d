import AtomicStyle.Number.Rounding

/-!
# Double-precision numbers

The fractional numbers of a style document are IEEE doubles.  Each is kept as the exact number that
it is: a sign, a significand and a power of two.  `ofRatio` is the only way in: it rounds an exact
fraction to the nearest double, ties to the even significand, and every operation of the library
computes an exact fraction and rounds it once.

* `Binary64` - a double;
* `Binary64.ofRatio` - the double nearest to a fraction;
* `Binary64.ofInt?` - the double nearest to an integer, unless it is out of range;
* `Binary64.scale`, `Binary64.roundPlaces` - product with a fraction, decimal rounding;
* `Binary64.toInt?` - the integer that a double is, if it is one.
-/

namespace AtomicStyle

/-- A double.  A finite one is `±significand · 2^exponent`; the values that occur have a
significand below `2^53` and an exponent from -1074 to 971, and a significand of at least `2^52`
unless the exponent is -1074. -/
inductive Binary64 where
  | finite (negative : Bool) (significand : Nat) (exponent : Int)
  | infinite (negative : Bool)
  | nan
deriving DecidableEq, Repr

namespace Binary64

open Number

/-- The exponent of the smallest positive double. -/
def minExponent : Int := -1074

/-- The exponent of the largest finite doubles. -/
def maxExponent : Int := 971

/-- Zero of the given sign. -/
def zero (negative : Bool) : Binary64 :=
  .finite negative 0 minExponent

/-- The fraction `m · 2^q`. -/
def dyadic (m : Nat) (q : Int) : Nat × Nat :=
  if 0 ≤ q then (m * Nat.pow 2 q.toNat, 1) else (m, Nat.pow 2 (-q).toNat)

/-- The power `e` with `2^e ≤ n / d < 2^(e + 1)`, for positive `n` and `d`. -/
def binaryOrder (n d : Nat) : Int :=
  let e : Int := (n.log2 : Int) - (d.log2 : Int)
  let reached := if 0 ≤ e then d * Nat.pow 2 e.toNat ≤ n else d ≤ n * Nat.pow 2 (-e).toNat
  if reached then e else e - 1

/-- The double with the given significand and exponent, where a significand of `2^53`, reached by
rounding up, moves to the next exponent, and what exceeds the range is infinite. -/
def pack (negative : Bool) (m : Nat) (q : Int) : Binary64 :=
  let (m, q) := if m = Nat.pow 2 53 then (Nat.pow 2 52, q + 1) else (m, q)
  if maxExponent < q then .infinite negative else .finite negative m q

/-- The double nearest to `±n / d`, ties to the even significand. -/
def ofRatio (negative : Bool) (n d : Nat) : Binary64 :=
  if n = 0 then zero negative
  else
    let q := max (binaryOrder n d - 52) minExponent
    let m :=
      if 0 ≤ q then roundDiv n (d * Nat.pow 2 q.toNat)
      else roundDiv (n * Nat.pow 2 (-q).toNat) d
    pack negative m q

/-- The double nearest to an integer, or nothing when it is out of range. -/
def ofInt? (n : Int) : Option Binary64 :=
  match ofRatio (n < 0) n.natAbs 1 with
  | .infinite _ => none
  | x => some x

/-- Whether the double is a number: neither infinite nor undefined. -/
def isFinite : Binary64 → Bool
  | .finite .. => true
  | _ => false

/-- Whether the double is zero of either sign. -/
def isZero : Binary64 → Bool
  | .finite _ m _ => m == 0
  | _ => false

/-- The double nearest to `x · n / d`, for a positive fraction `n / d`. -/
def scale (x : Binary64) (n d : Nat) : Binary64 :=
  match x with
  | .finite negative m q =>
    let (num, den) := dyadic m q
    ofRatio negative (num * n) (den * d)
  | x => x

/-- The magnitude of a finite double, rounded to a whole number of units of `10^-places`. -/
def unitsAtPlaces (m : Nat) (q : Int) (places : Nat) : Nat :=
  let (num, den) := dyadic m q
  roundDiv (num * Nat.pow 10 places) den

/-- The double nearest to the value rounded to the given number of decimal places. -/
def roundPlaces (x : Binary64) (places : Nat) : Binary64 :=
  match x with
  | .finite negative m q => ofRatio negative (unitsAtPlaces m q places) (Nat.pow 10 places)
  | x => x

/-- The integer that a double is, if it has no fractional part. -/
def toInt? : Binary64 → Option Int
  | .finite negative m q =>
    let (num, den) := dyadic m q
    if num % den = 0 then
      some (if negative then -((num / den : Nat) : Int) else ((num / den : Nat) : Int))
    else none
  | _ => none

/-- Whether the magnitude of a double is at least the natural number `k`. -/
def magnitudeAtLeast (x : Binary64) (k : Nat) : Bool :=
  match x with
  | .finite _ m q => let (num, den) := dyadic m q; k * den ≤ num
  | .infinite _ => true
  | .nan => false

/-- Whether a non-negative double is at most the natural number `k`. -/
def atMost (x : Binary64) (k : Nat) : Bool :=
  match x with
  | .finite negative m q => let (num, den) := dyadic m q; negative || num ≤ k * den
  | .infinite negative => negative
  | .nan => false

/-- Rounding zero gives zero. -/
@[simp] theorem ofRatio_zero (negative : Bool) (d : Nat) :
    ofRatio negative 0 d = zero negative := rfl

end Binary64

end AtomicStyle
