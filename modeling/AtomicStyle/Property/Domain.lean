/-!
# What values a property takes

Every property that the compiler knows by name belongs to one domain, which fixes how a bare number
is written for it and what strict checking admits.  The domains are disjoint, so they are one
classification (`domain?`) and not four tables.

* `Domain` - lengths, bare numbers, durations, and everything else;
* `domain?` - the domain of a property;
* `takesPropertyNames`, `takesGridLines`, `namesAnimation` - properties with a rule of their own.
-/

namespace AtomicStyle.Property

/-- What values a property takes. -/
inductive Domain where
  /-- Lengths: a bare number counts pixels. -/
  | length
  /-- Numbers without a unit. -/
  | number
  /-- Durations: a bare number counts milliseconds. -/
  | time
  /-- Values that the compiler passes through. -/
  | plain
deriving DecidableEq, Repr

/-- The sides and axes of a box, physical and relative to the writing direction. -/
def sides : List String :=
  ["top", "right", "bottom", "left", "inline-start", "inline-end", "block-start", "block-end",
   "inline", "block", "start", "end"]

/-- The properties of one kind for every side. -/
def forSides (before after : String) : List String :=
  sides.map fun side => before ++ side ++ after

/-- The properties that take a length. -/
def lengthProperties : List String := [
  "width", "height", "min-width", "min-height", "max-width", "max-height", "inline-size",
  "block-size", "min-inline-size", "min-block-size", "max-inline-size", "max-block-size",
  "margin", "padding", "top", "right", "bottom", "left", "inset", "border-width", "border-radius",
  "border-top-left-radius", "border-top-right-radius", "border-bottom-left-radius",
  "border-bottom-right-radius", "border-start-start-radius", "border-start-end-radius",
  "border-end-start-radius", "border-end-end-radius", "border-spacing", "outline-width",
  "outline-offset", "font-size", "letter-spacing", "word-spacing", "text-indent", "gap",
  "row-gap", "column-gap", "column-width", "column-rule-width", "flex-basis", "perspective",
  "translate", "scroll-margin", "scroll-padding", "text-underline-offset",
  "text-decoration-thickness"] ++
  forSides "margin-" "" ++ forSides "padding-" "" ++ forSides "inset-" "" ++
  forSides "border-" "-width" ++ forSides "scroll-margin-" "" ++ forSides "scroll-padding-" ""

/-- The properties that take a number without a unit. -/
def numberProperties : List String := [
  "animation-iteration-count", "aspect-ratio", "border-image-outset", "border-image-slice",
  "border-image-width", "column-count", "columns", "fill-opacity", "flex", "flex-grow",
  "flex-shrink", "flood-opacity", "font-size-adjust", "font-weight", "grid-area", "grid-column",
  "grid-column-end", "grid-column-start", "grid-row", "grid-row-end", "grid-row-start",
  "initial-letter", "line-clamp", "line-height", "math-depth", "opacity", "order", "orphans",
  "scale", "stop-opacity", "stroke-dasharray", "stroke-dashoffset", "stroke-miterlimit",
  "stroke-opacity", "stroke-width", "tab-size", "widows", "z-index", "zoom"]

/-- The properties that take a duration. -/
def timeProperties : List String :=
  ["animation-delay", "animation-duration", "transition-delay", "transition-duration"]

/-- The other properties known by name. -/
def plainProperties : List String := [
  "align-content", "align-items", "align-self", "animation", "animation-direction",
  "animation-fill-mode", "animation-name", "animation-play-state", "animation-timing-function",
  "appearance", "backdrop-filter", "backface-visibility", "background", "background-attachment",
  "background-blend-mode", "background-clip", "background-color", "background-image",
  "background-origin", "background-position", "background-repeat", "background-size", "border",
  "border-bottom", "border-bottom-color", "border-bottom-style", "border-collapse", "border-left",
  "border-left-color", "border-left-style", "border-right", "border-right-color",
  "border-right-style", "border-top", "border-top-color", "border-top-style", "box-shadow",
  "box-sizing", "caret-color", "clear", "clip-path", "color", "color-scheme", "contain",
  "container", "container-name", "container-type", "content", "cursor", "direction", "display",
  "fill", "filter", "flex-direction", "flex-flow", "flex-wrap", "float", "font", "font-family",
  "font-feature-settings", "font-style", "font-variant", "font-variant-numeric", "grid",
  "grid-auto-columns", "grid-auto-flow", "grid-auto-rows", "grid-template", "grid-template-areas",
  "grid-template-columns", "grid-template-rows", "hyphens", "isolation", "justify-content",
  "justify-items", "justify-self", "list-style", "list-style-position", "list-style-type", "mask",
  "mask-image", "mix-blend-mode", "object-fit", "object-position", "outline", "outline-color",
  "outline-style", "overflow-wrap", "overflow-x", "overflow-y", "overscroll-behavior",
  "place-content", "place-items", "place-self", "pointer-events", "position", "resize", "rotate",
  "scroll-behavior", "scroll-snap-align", "scroll-snap-type", "stroke", "table-layout",
  "text-align", "text-decoration", "text-decoration-color", "text-decoration-line",
  "text-decoration-style", "text-overflow", "text-shadow", "text-transform", "touch-action",
  "transform", "transform-origin", "transform-style", "transition", "transition-property",
  "transition-timing-function", "user-select", "vertical-align", "visibility", "white-space",
  "will-change", "word-break"]

/-- The domain of a property, if the property is known by name. -/
def domain? (property : String) : Option Domain :=
  if numberProperties.contains property then some .number
  else if timeProperties.contains property then some .time
  else if lengthProperties.contains property then some .length
  else if plainProperties.contains property then some .plain
  else none

/-- The properties whose value is a list of property names. -/
def takesPropertyNames (property : String) : Bool :=
  property == "transition-property" || property == "will-change"

/-- The properties among those of bare numbers whose value may also name a line or an area of a
grid. -/
def takesGridLines (property : String) : Bool :=
  ["grid-area", "grid-column", "grid-column-end", "grid-column-start", "grid-row",
   "grid-row-end", "grid-row-start"].contains property

/-- The properties whose value refers to compiled keyframes. -/
def namesAnimation (property : String) : Bool :=
  property == "animation" || property == "animation-name"

/-- Whether the property is a custom one, whose name starts with two dashes.  Custom properties
take any value. -/
def isCustom (property : String) : Bool :=
  property.toList.take 2 == ['-', '-']

end AtomicStyle.Property
