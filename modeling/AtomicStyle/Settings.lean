import AtomicStyle.Text.Letter

/-!
# Compiler settings

* `ClassPrefix` - the text in front of every identifier, valid at the start of a class name;
* `Resolution` - whether logical properties stay logical or become physical;
* `Settings` - all that a compilation depends on besides its input.
-/

namespace AtomicStyle

/-- Whether a text may stand in front of an identifier: it starts with a letter, and holds letters,
numerals, dashes and underscores only. -/
def isClassPrefix : List Char → Bool
  | [] => false
  | c :: cs =>
    Text.isLetter c && (c :: cs).all fun d => d == '-' || d == '_' || Text.isAlphanumeric d

/-- A text that may stand in front of an identifier. -/
structure ClassPrefix where
  text : String
  valid : isClassPrefix text.toList = true

/-- The prefix that is used unless another is asked for. -/
def ClassPrefix.default : ClassPrefix :=
  ⟨"x", by decide⟩

/-- How logical properties are emitted. -/
inductive Resolution where
  /-- By their logical CSS names, which hold for both directions. -/
  | logical
  /-- By the physical names of a direction, with a counterpart for the other. -/
  | physical
deriving DecidableEq, Repr

/-- What a compilation depends on besides its input. -/
structure Settings where
  classPrefix : ClassPrefix := .default
  resolution : Resolution := .logical
  /-- Whether values that depend on the direction are flipped for the other. -/
  flipsValues : Bool := true
  /-- Whether values must lie in the domain of their property. -/
  strictValues : Bool := false
  /-- Whether properties must be known by name. -/
  strictProperties : Bool := false
  /-- Whether every step is to be traced. -/
  debug : Bool := false

/-- Whether logical properties become physical ones. -/
def Settings.isPhysical (s : Settings) : Bool :=
  s.resolution == .physical

end AtomicStyle
