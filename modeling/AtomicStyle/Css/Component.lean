import AtomicStyle.Css.Decimal
import AtomicStyle.Css.Keyword
import AtomicStyle.Text.LowerCase

/-!
# Classes of components

Strict checking asks of each component of a value whether it belongs to the domain of its property.
The classes overlap: a function call counts as anything, since its result is not known here.

* `isDimension`, `isDuration`, `isNumber`, `isZero`, `isCall` - the forms of a component;
* `isLengthComponent`, `isTimeComponent`, `isNumberComponent` - the three domains.

Every form tolerates one line break at its end.
-/

namespace AtomicStyle.Css

open Text

/-- Whether the text is one of the words, in any case. -/
def isOneOfWords (words : List String) (text : List Char) : Bool :=
  words.any fun word =>
    match dropWord? word.toList text with
    | some rest => isEnd rest
    | none => false

/-- Whether the lower case of the text is one of the keywords. -/
def isKeyword (keywords : List String) (text : List Char) : Bool :=
  keywords.contains (String.ofList (lower text))

/-- A decimal, perhaps with an exponent, and a unit that is not one of time. -/
def isDimension (text : List Char) : Bool :=
  match Decimal.read? text with
  | some (_, rest) => isOneOfWords dimensionUnits (dropExponent rest)
  | none => false

/-- A decimal and a unit of time. -/
def isDuration (text : List Char) : Bool :=
  match Decimal.read? text with
  | some (_, rest) => isOneOfWords ["ms", "s"] rest
  | none => false

/-- A decimal, perhaps with an exponent, and no unit. -/
def isNumber (text : List Char) : Bool :=
  match Decimal.read? text with
  | some (_, rest) => isEnd (dropExponent rest)
  | none => false

/-- Zeros of ASCII with an optional sign and an optional point that has a zero behind it. -/
def isZero (text : List Char) : Bool :=
  let digits := (readSign text).2
  match digits.dropWhile (· == '0') with
  | '.' :: fraction => fraction.head? == some '0' && isEnd (fraction.dropWhile (· == '0'))
  | rest => digits.head? == some '0' && isEnd rest

/-- Whether the character may stand in the name of a function: an ASCII letter or a dash. -/
def isCallNameChar (c : Char) : Bool :=
  c.isAlpha || c == '-'

/-- A function call: a name, and an argument between parentheses that reaches to the end. -/
def isCall (text : List Char) : Bool :=
  match text.takeWhile isCallNameChar, text.dropWhile isCallNameChar with
  | _ :: _, '(' :: rest => (dropFinalBreak rest).getLast? == some ')'
  | _, _ => false

/-- The components of a length: a dimension, zero, a function call or a keyword. -/
def isLengthComponent (text : List Char) : Bool :=
  isDimension text || isZero text || isCall text || isKeyword lengthKeywords text ||
    isKeyword globalKeywords text

/-- The components of a duration: a duration, a function call or a keyword of every property. -/
def isTimeComponent (text : List Char) : Bool :=
  isDuration text || isCall text || isKeyword globalKeywords text

/-- The components of a bare number: a number, a dimension, a function call or a keyword. -/
def isNumberComponent (text : List Char) : Bool :=
  isNumber text || isDimension text || isCall text || isKeyword numberKeywords text ||
    isKeyword lengthKeywords text || isKeyword globalKeywords text

end AtomicStyle.Css
