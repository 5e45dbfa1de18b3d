import AtomicStyle.Css.Component
import AtomicStyle.Css.Components
import AtomicStyle.Css.Importance
import AtomicStyle.Failure
import AtomicStyle.Text.Letter

/-!
# Flipping a value

Some values speak of left and right themselves: the horizontal offset of a shadow, the cursors that
show a resize direction, a position given by side words, and the direction of a gradient.  Each of
these families of properties has a flip of its own; the importance mark is set aside first.

* `flipWords` - the words `left` and `right` exchanged;
* `flipShadows`, `flipCursor`, `flipGradients` - the flips of the other families;
* `flipValue` - the flip of a value for its property.

A word is found in any case, and so also in letters outside ASCII; a word that is not `left` or
`right` in lower case has no opposite, and flipping it is a fault.
-/

namespace AtomicStyle.Flip

open Css Text

/-- The word `left`. -/
def left : List Char := ['l', 'e', 'f', 't']

/-- The word `right`. -/
def right : List Char := ['r', 'i', 'g', 'h', 't']

/-- The opposite of a side word in lower case. -/
def opposite (word : List Char) : Outcome (List Char) :=
  let word := lower word
  if word = left then .ok right
  else if word = right then .ok left
  else fault (.unknownSide (String.ofList word))

/-- Whether a word goes on at the front of the text. -/
def continues : List Char → Bool
  | [] => false
  | c :: _ => isWordChar c

/-- The side word at the front of a text, in any case, when no word goes on across its ends;
`before` is the character in front of the text. -/
def sideWord? (before : Option Char) (text : List Char) : Option (List Char) :=
  if before.any isWordChar then none
  else
    match (dropWord? left text).or (dropWord? right text) with
    | some rest => if continues rest then none else some (text.take (text.length - rest.length))
    | none => none

/-- `flipWords` from a point of the text, behind the character `before`, with `skip` characters
still to be passed over because a side word took them. -/
def flipWordsFrom (before : Option Char) (skip : Nat) : List Char → Outcome (List Char)
  | [] => .ok []
  | c :: cs =>
    if 0 < skip then flipWordsFrom (some c) (skip - 1) cs
    else
      match sideWord? before (c :: cs) with
      | some word => do
        let flipped ← opposite word
        let rest ← flipWordsFrom (some c) (word.length - 1) cs
        pure (flipped ++ rest)
      | none => do
        let rest ← flipWordsFrom (some c) 0 cs
        pure (c :: rest)

/-- The text with the words `left` and `right` exchanged, which come out in lower case. -/
def flipWords (text : List Char) : Outcome (List Char) :=
  flipWordsFrom none 0 text

/-- The component with the opposite sign.  Zero has none. -/
def negate (component : List Char) : List Char :=
  if isZero component then component
  else
    match component with
    | '-' :: rest => rest
    | component => '-' :: component.dropWhile (· == '+')

/-- Whether a component of a shadow is one of its lengths. -/
def isOffset (component : List Char) : Bool :=
  isDimension component || isZero component

/-- The components with the first length negated. -/
def negateFirst : List (List Char) → List (List Char)
  | [] => []
  | part :: parts => if isOffset part then negate part :: parts else part :: negateFirst parts

/-- The components of one shadow, its horizontal offset negated.  Fewer than two lengths are no
offsets. -/
def flipShadow (parts : List (List Char)) : List (List Char) :=
  if 2 ≤ parts.countP isOffset then negateFirst parts else parts

/-- A list of shadows with each horizontal offset negated. -/
def flipShadows (text : List Char) : List Char :=
  joinWith ',' ((components [','] text).map fun shadow =>
    joinWith ' ' (flipShadow (components [' '] shadow)))

/-- The cursors that show a direction, each with its opposite. -/
def cursors : List (String × String) := [
  ("e-resize", "w-resize"), ("w-resize", "e-resize"),
  ("ne-resize", "nw-resize"), ("nw-resize", "ne-resize"),
  ("se-resize", "sw-resize"), ("sw-resize", "se-resize"),
  ("nesw-resize", "nwse-resize"), ("nwse-resize", "nesw-resize")]

/-- A cursor with its direction flipped, if it shows one. -/
def flipCursor (text : List Char) : List Char :=
  match cursors.lookup (String.ofList (lower text)) with
  | some flipped => flipped.toList
  | none => text

/-- The start of a linear gradient. -/
def gradientStart : List Char :=
  "linear-gradient(".toList

/-- Whether the character may stand in the direction of a gradient: a letter or a blank. -/
def isDirectionChar (c : Char) : Bool :=
  isFoldedLetter c || isBlank c

/-- The head of a linear gradient at the front of a text, up to the word `to`, and the direction
behind it, which begins with a blank and reaches to the next comma. -/
def gradient? (text : List Char) : Option (List Char × List Char) := do
  let inside ← dropWord? gradientStart text
  let behind ← dropWord? ['t', 'o'] (trimStart inside)
  let direction := behind.takeWhile isDirectionChar
  let rest := behind.dropWhile isDirectionChar
  if (direction.head?.any isBlank) && rest.head? == some ',' then
    some (text.take (text.length - behind.length), direction)
  else none

/-- `flipGradients` from a point of the text, with `skip` characters still to be passed over because
a gradient took them. -/
def flipGradientsFrom (skip : Nat) : List Char → Outcome (List Char)
  | [] => .ok []
  | c :: cs =>
    if 0 < skip then flipGradientsFrom (skip - 1) cs
    else
      match gradient? (c :: cs) with
      | some (head, direction) => do
        let flipped ← flipWords direction
        let rest ← flipGradientsFrom (head.length + direction.length - 1) cs
        pure (head ++ flipped ++ rest)
      | none => do
        let rest ← flipGradientsFrom 0 cs
        pure (c :: rest)

/-- The text with the side words in the directions of its linear gradients exchanged. -/
def flipGradients (text : List Char) : Outcome (List Char) :=
  flipGradientsFrom 0 text

/-- The properties whose value is a list of shadows. -/
def takesShadows (property : String) : Bool :=
  property == "box-shadow" || property == "text-shadow"

/-- The properties whose value is a position given by side words. -/
def takesPosition (property : String) : Bool :=
  property == "background-position" || property == "background-position-x" ||
    property == "object-position"

/-- The body of a value flipped by the rule of its property. -/
def flipBody (property : String) (body : List Char) : Outcome (List Char) :=
  if takesShadows property then .ok (flipShadows body)
  else if property = "cursor" then .ok (flipCursor body)
  else if takesPosition property then flipWords body
  else flipGradients body

/-- A value flipped for the other direction.  A value that flipping leaves alone keeps its very
spelling. -/
def flipValue (property : String) (value : List Char) : Outcome (List Char) := do
  let (body, important) := splitImportance value
  let flipped ← flipBody property body
  pure (if flipped = body then value else attachImportance flipped important)

end AtomicStyle.Flip
