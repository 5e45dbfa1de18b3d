import AtomicStyle.Number.Binary64
import AtomicStyle.Number.Numeral

/-!
# The shortest decimal of a double

A double is written with the fewest decimal digits that read back as the same double, and among the
decimals of that length with the nearest one; an exact tie goes to the even last digit.

The decimals that read back are those in the interval between the midpoints to the two neighbouring
doubles, whose ends belong to it when the significand is even.  On each grid of 1, 2, … 17 digits
only the two neighbours of the value itself need testing, since every grid point of the interval
has one of them between itself and the value.

* `Shortest.interval` - the decimals that read back;
* `Shortest.digits` - the shortest decimal, as a coefficient and a power of ten.
-/

namespace AtomicStyle.Shortest

open Binary64

/-- The decimals that read back as one double: the exact fraction `value / unit` of the double and
the ends `low / unit` and `high / unit` of the interval around it. -/
structure Interval where
  low : Nat
  value : Nat
  high : Nat
  unit : Nat
  closed : Bool

/-- The interval of a positive finite double.  The gap below a power of two is half the gap above
it, except at the smallest exponent. -/
def interval (m : Nat) (q : Int) : Interval :=
  let (scaled, unit) := dyadic 1 (q - 2)
  let below := if m = Nat.pow 2 52 ∧ minExponent < q then 1 else 2
  { low := (4 * m - below) * scaled
    value := 4 * m * scaled
    high := (4 * m + 2) * scaled
    unit := unit
    closed := m % 2 == 0 }

/-- The number of decimal digits of a natural number; none for zero. -/
def digitCount (n : Nat) : Nat :=
  (Numeral.digitsUp 10 n).length

/-- The power `k` with `10^(k - 1) ≤ n / d < 10^k`, for positive `n` and `d`. -/
def decimalOrder (n d : Nat) : Int :=
  if d ≤ n then digitCount (n / d)
  else
    let t := digitCount (d / n)
    if d ≤ n * Nat.pow 10 (t - 1) then 2 - (t : Int) else 1 - (t : Int)

/-- Whether the decimal `c · 10^e` lies in the interval. -/
def Interval.holds (i : Interval) (c : Nat) (e : Int) : Bool :=
  let num := if 0 ≤ e then c * Nat.pow 10 e.toNat * i.unit else c * i.unit
  let den := if 0 ≤ e then 1 else Nat.pow 10 (-e).toNat
  if i.closed then i.low * den ≤ num && num ≤ i.high * den
  else i.low * den < num && num < i.high * den

/-- The decimal on the grid of step `10^e` that reads back and is nearest to the value, if one of
the two neighbours of the value reads back. -/
def Interval.onGrid? (i : Interval) (e : Int) : Option Nat :=
  let num := if 0 ≤ e then i.value else i.value * Nat.pow 10 (-e).toNat
  let den := if 0 ≤ e then i.unit * Nat.pow 10 e.toNat else i.unit
  let lower := num / den
  let upper := lower + 1
  match i.holds lower e, i.holds upper e with
  | false, false => none
  | true, false => some lower
  | false, true => some upper
  | true, true => some (Number.roundDiv num den)

/-- The first grid, from the coarsest, that holds a decimal reading back.  `e` is the step of the
grid to try and `fuel` the number of grids left; seventeen digits always suffice. -/
def search (i : Interval) (e : Int) : Nat → Nat × Int
  | 0 => (0, 0)
  | fuel + 1 =>
    match i.onGrid? e with
    | some c => (c, e)
    | none => search i (e - 1) fuel

/-- Drops the zeros at the end of a positive coefficient, which count as powers of ten. -/
def dropZeros (c : Nat) (e : Int) : Nat × Int :=
  if c = 0 then (c, e)
  else if c % 10 = 0 then dropZeros (c / 10) (e + 1) else (c, e)
termination_by c
decreasing_by omega

/-- The shortest decimal `c · 10^e` of the positive double `m · 2^q`, with no zero at the end of
`c`. -/
def digits (m : Nat) (q : Int) : Nat × Int :=
  let i := interval m q
  let (c, e) := search i (decimalOrder i.value i.unit - 1) 18
  dropZeros c e

end AtomicStyle.Shortest
