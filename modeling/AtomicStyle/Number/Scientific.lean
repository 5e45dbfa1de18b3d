import AtomicStyle.Number.Binary64
import AtomicStyle.Number.Numeral

/-!
# Reading a double

A double is read from the text of a decimal in ASCII: a sign, digits with an optional point, and an
optional exponent; or from one of the words for infinity and for the undefined number.  The value
is the nearest double, whatever the number of digits.

* `Binary64.ofScientific` - the double nearest to `±c · 10^e`;
* `Binary64.ofText?` - the double that a text denotes.
-/

namespace AtomicStyle.Binary64

/-- A power of ten beyond which every positive decimal is out of range. -/
def decimalLimit : Int := 310

/-- The double nearest to `±c · 10^e`.  A decimal far out of range is settled by its magnitude
alone. -/
def ofScientific (negative : Bool) (c : Nat) (e : Int) : Binary64 :=
  if c = 0 then zero negative
  else if decimalLimit < e then .infinite negative
  else if 0 ≤ e then ofRatio negative (c * Nat.pow 10 e.toNat) 1
  else if e < -(((Numeral.digitsUp 10 c).length : Int) + 330) then zero negative
  else ofRatio negative c (Nat.pow 10 (-e).toNat)

/-- The ASCII digits at the front of a text, and what follows them. -/
def spanDigits (text : List Char) : List Char × List Char :=
  text.span fun c => '0' ≤ c && c ≤ '9'

/-- The number that ASCII digits denote. -/
def digitsValue (ds : List Char) : Nat :=
  ds.foldl (fun n c => 10 * n + (c.toNat - 0x30)) 0

/-- The exponent that makes up the whole text; no text at all is the exponent zero. -/
def exponent? : List Char → Option Int
  | [] => some 0
  | c :: cs =>
    if c = 'e' || c = 'E' then
      let (negative, rest) :=
        match cs with
        | '-' :: rest => (true, rest)
        | '+' :: rest => (false, rest)
        | rest => (false, rest)
      match spanDigits rest with
      | (d :: ds, []) =>
        let magnitude : Int := digitsValue (d :: ds)
        some (if negative then -magnitude else magnitude)
      | _ => none
    else none

/-- The unsigned double that a text denotes. -/
def ofUnsigned? (negative : Bool) (text : List Char) : Option Binary64 :=
  if text = ['i', 'n', 'f'] then some (.infinite negative)
  else if text = ['n', 'a', 'n'] then some .nan
  else
    let (whole, rest) := spanDigits text
    let (fraction, rest) :=
      match rest with
      | '.' :: rest => spanDigits rest
      | rest => ([], rest)
    if whole.isEmpty && fraction.isEmpty then none
    else
      (exponent? rest).map fun e =>
        ofScientific negative (digitsValue (whole ++ fraction)) (e - fraction.length)

/-- The double that a text denotes. -/
def ofText? : List Char → Option Binary64
  | '-' :: rest => ofUnsigned? true rest
  | text => ofUnsigned? false text

end AtomicStyle.Binary64
