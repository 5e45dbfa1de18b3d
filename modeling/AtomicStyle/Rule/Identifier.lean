import AtomicStyle.Number.Numeral
import AtomicStyle.Rule.Murmur

/-!
# Identifiers

The class or animation name of a rule is derived from the canonical text of the rule alone, so that
the same style has the same name on every machine: a prefix that makes it a valid name, the digest
of the tagged text in base 36, and a letter for the kind of rule.  Rules of different kinds never
share a name.

* `Category` - the kinds of rules;
* `digestText` - the digest of a text in base 36;
* `identifier` - the name of a rule.
-/

namespace AtomicStyle

/-- The kinds of rules. -/
inductive Category where
  /-- A class with its declarations. -/
  | block
  /-- Named keyframes. -/
  | keyframes
deriving DecidableEq, Repr

/-- The letter at the end of the identifiers of a kind. -/
def Category.letter : Category → Char
  | .block => 'A'
  | .keyframes => 'B'

/-- The seed of all identifiers. -/
def digestSeed : Int := 1

/-- The tag in front of every text from which an identifier is derived. -/
def digestTag : String := "<>"

/-- The digest of a text's UTF-8 bytes, in base 36. -/
def digestText (text : String) : List Char :=
  Numeral.base36 (Murmur.murmur digestSeed text.toUTF8.toList).toNat

/-- The name of a rule with the given canonical text. -/
def identifier (category : Category) (text : String) (front : String) : String :=
  String.ofList (front.toList ++ digestText (digestTag ++ text) ++ ['-', category.letter])

end AtomicStyle
