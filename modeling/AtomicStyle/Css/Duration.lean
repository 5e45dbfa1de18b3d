import AtomicStyle.Css.Decimal
import AtomicStyle.Css.Number
import AtomicStyle.Text.Letter

/-!
# Durations

A bare number of a time property counts milliseconds.  Every duration has one canonical unit:
seconds from ten milliseconds on, milliseconds below, and `0s` for none at all, so that all
spellings of a duration give one text.

* `Numeric.formatDuration` - a number of milliseconds in its canonical unit;
* `durationToken?` - a duration written at the front of a text;
* `canonicalizeDurations` - a text with each duration in its canonical unit.
-/

namespace AtomicStyle.Css

open Text

/-- The least number of milliseconds that is written in seconds. -/
def secondsFrom : Nat := 10

/-- A double of milliseconds in its canonical unit. -/
def formatMilliseconds (x : Binary64) : List Char :=
  if x.isZero then ['0', 's']
  else if x.magnitudeAtLeast secondsFrom then Numeric.formatFloat (x.scale 1 1000) ++ ['s']
  else Numeric.formatFloat x ++ ['m', 's']

/-- A number of milliseconds in its canonical unit. -/
def Numeric.formatDuration : Numeric → Outcome (List Char)
  | .float x => .ok (formatMilliseconds x)
  | .int n =>
    if n = 0 then .ok ['0', 's']
    else if secondsFrom ≤ n.natAbs then
      match Binary64.ofRatio (n < 0) n.natAbs 1000 with
      | .infinite _ => fault .quotientTooLarge
      | seconds => .ok (Numeric.formatFloat seconds ++ ['s'])
    else .ok (Numeral.signed n ++ ['m', 's'])

/-- Whether a word goes on at the front of the text. -/
def continuesWord : List Char → Bool
  | [] => false
  | c :: _ => isWordChar c

/-- Whether a duration may begin behind the given character, or at the start of the text: it must
not continue a word, a number or a dashed name. -/
def mayBeginDuration : Option Char → Bool
  | none => true
  | some c => !(isWordChar c || c == '.' || c == '-')

/-- The milliseconds of a duration whose unit is spelled `unit`.  Seconds are the plain letter in
either case. -/
def milliseconds (d : Decimal) (unit : List Char) : Binary64 :=
  if unit = ['s'] || unit = ['S'] then d.toBinary64.scale 1000 1 else d.toBinary64

/-- The duration at the front of a text, in its canonical spelling, with the number of characters
that it took.  Its unit must end a word. -/
def durationToken? (text : List Char) : Option (List Char × Nat) :=
  match Decimal.read? text with
  | none => none
  | some (d, rest) =>
    match (dropWord? ['m', 's'] rest).or (dropWord? ['s'] rest) with
    | none => none
    | some behind =>
      if continuesWord behind then none
      else
        let unit := rest.take (rest.length - behind.length)
        some (formatMilliseconds (milliseconds d unit), text.length - behind.length)

/-- `canonicalizeDurations` from a point of the text, behind the character `before`, with `skip`
characters still to be passed over because a duration took them. -/
def canonicalizeFrom (before : Option Char) (skip : Nat) : List Char → List Char
  | [] => []
  | c :: cs =>
    if 0 < skip then canonicalizeFrom (some c) (skip - 1) cs
    else
      match if mayBeginDuration before then durationToken? (c :: cs) else none with
      | some (token, taken) => token ++ canonicalizeFrom (some c) (taken - 1) cs
      | none => c :: canonicalizeFrom (some c) 0 cs

/-- The text with each duration in its canonical unit. -/
def canonicalizeDurations (text : List Char) : List Char :=
  canonicalizeFrom none 0 text

end AtomicStyle.Css
