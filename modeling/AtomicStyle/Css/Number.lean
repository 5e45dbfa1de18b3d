import AtomicStyle.Failure

/-!
# Numbers in a style sheet

A number is rounded to four decimal places and written without a point when nothing is left behind
it, so that `1` and `1.0` are one text.  An integer of a document has no limit of size, but it must
be within the range of doubles.

* `Numeric` - the numbers of a document: integers and doubles;
* `Numeric.format` - a number as a style sheet holds it.
-/

namespace AtomicStyle.Css

/-- A number of a style document. -/
inductive Numeric where
  | int (n : Int)
  | float (x : Binary64)
deriving DecidableEq, Repr

namespace Numeric

/-- The number of decimal places kept. -/
def places : Nat := 4

/-- The text of a double: rounded, and without a point when it is whole. -/
def formatFloat (x : Binary64) : List Char :=
  let rounded := x.roundPlaces places
  match rounded.toInt? with
  | some n => Numeral.signed n
  | none => Layout.float rounded

/-- The text of a number. -/
def format : Numeric → Outcome (List Char)
  | int n => if (Binary64.ofInt? n).isSome then .ok (Numeral.signed n) else fault .integerTooLarge
  | float x => .ok (formatFloat x)

/-- The number as a value. -/
def toValue : Numeric → Value
  | int n => .int n
  | float x => .float x

/-- Whether the number is finite.  An integer beyond the range of doubles is a fault. -/
def isFinite : Numeric → Outcome Bool
  | int n => if (Binary64.ofInt? n).isSome then .ok true else fault .integerTooLarge
  | float x => .ok x.isFinite

end Numeric

end AtomicStyle.Css
