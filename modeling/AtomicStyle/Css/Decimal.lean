import AtomicStyle.Number.Binary64
import AtomicStyle.Text.Caseless
import AtomicStyle.Text.Digit

/-!
# Decimals inside a text

A decimal is a sign, digits and perhaps a point with digits; the point may stand at either end of
the digits.  The digits may be those of any script.  Reading is greedy: it takes all the digits that
follow.

* `Decimal` - a decimal as written: `±coefficient · 10^-places`;
* `Decimal.read?`, `Decimal.readUnsigned?` - the decimal at the front of a text, and what follows;
* `Decimal.toBinary64` - the nearest double;
* `dropExponent` - what follows an exponent, when there is one.
-/

namespace AtomicStyle.Css

open Text

/-- A decimal as written. -/
structure Decimal where
  negative : Bool := false
  coefficient : Nat
  places : Nat
deriving DecidableEq, Repr

/-- The values of the digits at the front of a text, and what follows them. -/
def readDigits : List Char → List Nat × List Char
  | [] => ([], [])
  | c :: cs =>
    match digitValue? c with
    | some d => let (ds, rest) := readDigits cs; (d :: ds, rest)
    | none => ([], c :: cs)

/-- The number that a list of decimal digits denotes. -/
def ofDigits (ds : List Nat) : Nat :=
  ds.foldl (fun n d => 10 * n + d) 0

/-- The sign at the front of a text, minus being `true`, and what follows it. -/
def readSign : List Char → Bool × List Char
  | '-' :: cs => (true, cs)
  | '+' :: cs => (false, cs)
  | cs => (false, cs)

namespace Decimal

/-- The unsigned decimal at the front of a text, and what follows it. -/
def readUnsigned? (text : List Char) : Option (Decimal × List Char) :=
  match readDigits text with
  | ([], '.' :: rest) =>
    match readDigits rest with
    | ([], _) => none
    | (fraction, rest) =>
      some ({ coefficient := ofDigits fraction, places := fraction.length }, rest)
  | ([], _) => none
  | (whole, '.' :: rest) =>
    let (fraction, rest) := readDigits rest
    some ({ coefficient := ofDigits (whole ++ fraction), places := fraction.length }, rest)
  | (whole, rest) => some ({ coefficient := ofDigits whole, places := 0 }, rest)

/-- The decimal at the front of a text, with an optional sign, and what follows it. -/
def read? (text : List Char) : Option (Decimal × List Char) :=
  let (negative, rest) := readSign text
  (readUnsigned? rest).map fun (d, rest) => ({ d with negative := negative }, rest)

/-- The double nearest to a decimal. -/
def toBinary64 (d : Decimal) : Binary64 :=
  .ofRatio d.negative d.coefficient (Nat.pow 10 d.places)

end Decimal

/-- What follows the exponent at the front of a text: an `e` in either case, a sign and at least one
digit.  A text without an exponent is left as it is. -/
def dropExponent : List Char → List Char
  | [] => []
  | c :: cs =>
    if foldChar c = 'e' then
      match readDigits (readSign cs).2 with
      | ([], _) => c :: cs
      | (_, rest) => rest
    else c :: cs

/-- Reading digits loses no character that is not a digit. -/
theorem readDigits_of_not_isDigit {c : Char} {cs : List Char} (h : isDigit c = false) :
    readDigits (c :: cs) = ([], c :: cs) := by
  have hn : digitValue? c = none := by simpa [isDigit] using h
  simp [readDigits, hn]

end AtomicStyle.Css
