/-!
# Keywords

The words that stand for a value by themselves, by the kind of property that takes them.  They are
compared in lower case.
-/

namespace AtomicStyle.Css

/-- The keywords that every property takes. -/
def globalKeywords : List String :=
  ["inherit", "initial", "unset", "revert", "revert-layer"]

/-- The keywords of properties that take a length. -/
def lengthKeywords : List String :=
  ["auto", "none", "normal", "min-content", "max-content", "fit-content", "thin", "medium",
   "thick"]

/-- The keywords of properties that take a bare number. -/
def numberKeywords : List String :=
  ["bold", "bolder", "lighter", "infinite", "span"]

/-- The keywords of the `content` property that are not generated text. -/
def contentKeywords : List String :=
  ["normal", "none", "open-quote", "close-quote", "no-open-quote", "no-close-quote"]

/-- The units of a dimension, besides the units of time. -/
def dimensionUnits : List String :=
  ["px", "em", "rem", "%", "vh", "vw", "vmin", "vmax", "svh", "lvh", "dvh", "svw", "lvw", "dvw",
   "ch", "ex", "cap", "ic", "lh", "rlh", "cm", "mm", "q", "in", "pt", "pc", "fr", "cqw", "cqh",
   "cqi", "cqb", "cqmin", "cqmax"]

end AtomicStyle.Css
