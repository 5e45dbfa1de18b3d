import AtomicStyle.Number.Shortest

/-!
# The text of a number

Two texts of a double are in use.  Messages show it with all its digits, in positional notation
from `10^-4` up to `10^16` and with an exponent beyond, and always with a decimal point or an
exponent.  Style sheets round it to four places first and write a whole number without a point
(`Css.Numeric.format`).

* `Layout.digits` - the digits of a decimal with its point set;
* `Layout.float` - a double as messages show it.
-/

namespace AtomicStyle.Layout

/-- The digits `ds` with the decimal point set behind the first `point` of them; zeros fill up on
either side.  A whole number ends in `.0`. -/
def positional (ds : List Char) (point : Int) : List Char :=
  if point ≤ 0 then '0' :: '.' :: List.replicate (-point).toNat '0' ++ ds
  else
    let p := point.toNat
    if ds.length ≤ p then ds ++ List.replicate (p - ds.length) '0' ++ ['.', '0']
    else ds.take p ++ '.' :: ds.drop p

/-- The digits with a point behind the first of them, and an exponent of at least two digits with
its sign. -/
def exponential (ds : List Char) (exponent : Int) : List Char :=
  let magnitude := Numeral.decimal exponent.natAbs
  let padded := if magnitude.length < 2 then '0' :: magnitude else magnitude
  let mantissa :=
    match ds with
    | d :: e :: rest => d :: '.' :: e :: rest
    | ds => ds
  mantissa ++ 'e' :: (if exponent < 0 then '-' else '+') :: padded

/-- The decimal exponents that are written positionally. -/
def isPositional (exponent : Int) : Bool :=
  -4 ≤ exponent && exponent < 16

/-- The shortest decimal of a positive double. -/
def magnitude (m : Nat) (q : Int) : List Char :=
  let (c, e) := Shortest.digits m q
  let ds := Numeral.decimal c
  let point := e + ds.length
  if isPositional (point - 1) then positional ds point else exponential ds (point - 1)

/-- A double with all the digits that tell it from its neighbours. -/
def float : Binary64 → List Char
  | .nan => "nan".toList
  | .infinite negative => (if negative then ['-'] else []) ++ "inf".toList
  | .finite negative m q =>
    (if negative then ['-'] else []) ++ (if m = 0 then "0.0".toList else magnitude m q)

end AtomicStyle.Layout
