/-!
# Properties relative to the writing direction

A logical property such as `margin-start` speaks of the start and the end of a line.  It can be
written as a logical CSS property, which holds for either direction, or as the physical property of
one direction.  On the block axis the two physical names are the same.

* `Direction` - the writing directions;
* `Logical` - the three renderings of a logical name;
* `logical?` - the renderings of a property;
* `logicalKeyword?` - the renderings of a keyword value, for the properties that take such keywords.
-/

namespace AtomicStyle

/-- A writing direction. -/
inductive Direction where
  | ltr
  | rtl
deriving DecidableEq, Repr

namespace Property

/-- The renderings of a name that is relative to the writing direction. -/
structure Logical where
  agnostic : String
  ltr : String
  rtl : String
deriving DecidableEq, Repr

namespace Logical

/-- The physical name in the given direction. -/
def physical (l : Logical) : Direction → String
  | .ltr => l.ltr
  | .rtl => l.rtl

/-- Whether the physical names of the two directions differ. -/
def isDirectional (l : Logical) : Bool :=
  l.ltr != l.rtl

end Logical

/-- The logical properties. -/
def logicalProperties : List (String × Logical) := [
  ("start", ⟨"inset-inline-start", "left", "right"⟩),
  ("end", ⟨"inset-inline-end", "right", "left"⟩),
  ("inset-inline-start", ⟨"inset-inline-start", "left", "right"⟩),
  ("inset-inline-end", ⟨"inset-inline-end", "right", "left"⟩),
  ("margin-start", ⟨"margin-inline-start", "margin-left", "margin-right"⟩),
  ("margin-end", ⟨"margin-inline-end", "margin-right", "margin-left"⟩),
  ("margin-inline-start", ⟨"margin-inline-start", "margin-left", "margin-right"⟩),
  ("margin-inline-end", ⟨"margin-inline-end", "margin-right", "margin-left"⟩),
  ("padding-start", ⟨"padding-inline-start", "padding-left", "padding-right"⟩),
  ("padding-end", ⟨"padding-inline-end", "padding-right", "padding-left"⟩),
  ("padding-inline-start", ⟨"padding-inline-start", "padding-left", "padding-right"⟩),
  ("padding-inline-end", ⟨"padding-inline-end", "padding-right", "padding-left"⟩),
  ("border-start-width",
    ⟨"border-inline-start-width", "border-left-width", "border-right-width"⟩),
  ("border-end-width", ⟨"border-inline-end-width", "border-right-width", "border-left-width"⟩),
  ("border-start-style",
    ⟨"border-inline-start-style", "border-left-style", "border-right-style"⟩),
  ("border-end-style", ⟨"border-inline-end-style", "border-right-style", "border-left-style"⟩),
  ("border-start-color",
    ⟨"border-inline-start-color", "border-left-color", "border-right-color"⟩),
  ("border-end-color", ⟨"border-inline-end-color", "border-right-color", "border-left-color"⟩),
  ("border-inline-start-width",
    ⟨"border-inline-start-width", "border-left-width", "border-right-width"⟩),
  ("border-inline-end-width",
    ⟨"border-inline-end-width", "border-right-width", "border-left-width"⟩),
  ("border-inline-start-style",
    ⟨"border-inline-start-style", "border-left-style", "border-right-style"⟩),
  ("border-inline-end-style",
    ⟨"border-inline-end-style", "border-right-style", "border-left-style"⟩),
  ("border-inline-start-color",
    ⟨"border-inline-start-color", "border-left-color", "border-right-color"⟩),
  ("border-inline-end-color",
    ⟨"border-inline-end-color", "border-right-color", "border-left-color"⟩),
  ("border-start-start-radius",
    ⟨"border-start-start-radius", "border-top-left-radius", "border-top-right-radius"⟩),
  ("border-start-end-radius",
    ⟨"border-start-end-radius", "border-top-right-radius", "border-top-left-radius"⟩),
  ("border-end-start-radius",
    ⟨"border-end-start-radius", "border-bottom-left-radius", "border-bottom-right-radius"⟩),
  ("border-end-end-radius",
    ⟨"border-end-end-radius", "border-bottom-right-radius", "border-bottom-left-radius"⟩),
  ("inset-block-start", ⟨"inset-block-start", "top", "top"⟩),
  ("inset-block-end", ⟨"inset-block-end", "bottom", "bottom"⟩),
  ("margin-block-start", ⟨"margin-block-start", "margin-top", "margin-top"⟩),
  ("margin-block-end", ⟨"margin-block-end", "margin-bottom", "margin-bottom"⟩),
  ("padding-block-start", ⟨"padding-block-start", "padding-top", "padding-top"⟩),
  ("padding-block-end", ⟨"padding-block-end", "padding-bottom", "padding-bottom"⟩)]

/-- The renderings of a logical property. -/
def logical? (property : String) : Option Logical :=
  logicalProperties.lookup property

/-- The keywords that are relative to the writing direction. -/
def logicalKeywords : List (String × Logical) := [
  ("start", ⟨"inline-start", "left", "right"⟩),
  ("end", ⟨"inline-end", "right", "left"⟩),
  ("inline-start", ⟨"inline-start", "left", "right"⟩),
  ("inline-end", ⟨"inline-end", "right", "left"⟩)]

/-- The renderings of a direction-relative keyword. -/
def logicalKeyword? (keyword : String) : Option Logical :=
  logicalKeywords.lookup keyword

/-- The properties that take direction-relative keywords. -/
def takesLogicalKeyword (property : String) : Bool :=
  property == "float" || property == "clear"

end Property

end AtomicStyle
