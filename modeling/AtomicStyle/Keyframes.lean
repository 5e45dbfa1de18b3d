import AtomicStyle.Css.Decimal
import AtomicStyle.Rule

/-!
# Keyframes

A keyframes definition maps selectors to flat styles.  A selector is a list of `from`, `to` and
percentages up to 100; its canonical spelling has no blanks around the commas, and no two selectors
of a definition may have the same one.  An error inside a frame is located at the frame's selector.

* `isPercentage` - the percentages that may stand in a selector;
* `frameSelector` - the canonical spelling of a selector;
* `compileKeyframes` - the rule of a definition, and `compileKeyframesIn` with notes.
-/

namespace AtomicStyle

open Css Compiling

/-- The keywords of a frame selector. -/
def frameKeywords : List String := ["from", "to"]

/-- The decimal of a percentage: digits with an optional fraction, or a fraction alone, and a
percent sign.  A point needs a digit behind it. -/
def percentage? (text : List Char) : Option Decimal :=
  match readDigits text with
  | (whole, '.' :: rest) =>
    match readDigits rest with
    | (d :: ds, rest) =>
      if rest = ['%'] then
        some { coefficient := ofDigits (whole ++ d :: ds), places := (d :: ds).length }
      else none
    | ([], _) => none
  | (d :: ds, ['%']) => some { coefficient := ofDigits (d :: ds), places := 0 }
  | _ => none

/-- Whether a part of a selector is a percentage whose nearest double is at most 100. -/
def isPercentage (text : List Char) : Bool :=
  match percentage? text with
  | some d => d.toBinary64.atMost 100
  | none => false

/-- Whether a part of a selector is a keyword or a percentage. -/
def isFramePart (part : List Char) : Bool :=
  frameKeywords.contains (String.ofList part) || isPercentage part

/-- The canonical spelling of a frame selector that is a text. -/
def textSelector (selector : String) (frame : Value) : Outcome String :=
  let parts := (Text.splitOn ',' selector.toList).map Text.trim
  if parts.all isFramePart then .ok (String.ofList (Text.joinWith ',' parts))
  else reject { reason := .badSelector, selector := selector, fragment := frame }

/-- The canonical spelling of a frame selector; `frame` is the frame under it, for the message. -/
def frameSelector (selector : Value) (frame : Value) : Outcome String :=
  match selector with
  | .text s => textSelector s frame
  | v => reject { reason := .selectorNotText, selector := v.display, fragment := frame }

/-- A key as a value. -/
def Key.toValue : Key → Value
  | .text s => .text s
  | .number n => .int n

/-- The declarations of one frame. -/
def resolveFrameIn {m : Type → Type} [Compiling m] (settings : Settings) (selector : String)
    (frame : Value) : m DeclarationSet :=
  match frame with
  | .map entries =>
    locate selector do
      step (checkScalars entries)
      resolveEntriesIn settings .ltr {} entries
  | v => step (reject { reason := .frameNotStyle, selector := selector, fragment := v })

/-- A frame for both directions. -/
structure Frame where
  selector : String
  ltr : DeclarationSet
  /-- The declarations for right-to-left documents, when they differ. -/
  rtl : Option DeclarationSet

/-- The canonical spelling of a frame's selector, which must not be among those seen. -/
def newSelector (seen : List String) (key : Key) (frame : Value) : Outcome String := do
  let selector ← frameSelector key.toValue frame
  if seen.contains selector then
    reject { reason := .duplicateSelector, selector := selector, fragment := frame }
  pure selector

section

variable {m : Type → Type} [Compiling m]

/-- The frame under one entry of a definition, behind those with the selectors `seen`. -/
def compileFrameIn (settings : Settings) (seen : List String) (key : Key) (frame : Value) :
    m Frame := do
  let selector ← step (newSelector seen key frame)
  let resolved ← resolveFrameIn settings selector frame
  let (ltr, rtl) ← withCounterpartIn settings resolved
  pure { selector := selector, ltr := ltr, rtl := rtl }

/-- The frames of a definition in order, behind those with the selectors `seen`. -/
def compileFramesIn (settings : Settings) (seen : List String) :
    List (Key × Value) → m (List Frame)
  | [] => pure []
  | (key, value) :: rest => do
    let frame ← compileFrameIn settings seen key value
    let frames ← compileFramesIn settings (frame.selector :: seen) rest
    pure (frame :: frames)

end

/-- The frames for left-to-right documents. -/
def ltrFrames (frames : List Frame) : List (String × DeclarationSet) :=
  frames.map fun f => (f.selector, f.ltr)

/-- The frames for right-to-left documents. -/
def rtlFrames (frames : List Frame) : List (String × DeclarationSet) :=
  frames.map fun f => (f.selector, f.rtl.getD f.ltr)

/-- The rule of compiled frames. -/
def keyframesRule (settings : Settings) (frames : List Frame) : Rule :=
  let name := identifier .keyframes (emitFrames (ltrFrames frames)) settings.classPrefix.text
  { identifier := name
    ltr := emitKeyframes name (ltrFrames frames)
    rtl := if frames.any fun f => f.rtl.isSome then some (emitKeyframes name (rtlFrames frames))
      else none
    priority := priority .keyframes {} [] }

/-- The entries of a keyframes definition that has any. -/
def keyframesEntries (definition : Value) : Outcome (List (Key × Value)) :=
  match definition with
  | .map (entry :: entries) => .ok (entry :: entries)
  | _ => reject { reason := .noFrames, fragment := definition }

/-- The rule of a keyframes definition. -/
def compileKeyframesIn {m : Type → Type} [Compiling m] (settings : Settings)
    (definition : Value) : m Rule := do
  let entries ← step (keyframesEntries definition)
  let frames ← compileFramesIn settings [] entries
  let rule := keyframesRule settings frames
  note 2 ("Compiled keyframes " ++ rule.identifier ++ " (" ++
    String.ofList (Numeral.decimal frames.length) ++ " frames)")
  pure rule

/-- The rule of a keyframes definition. -/
def compileKeyframes (settings : Settings) (definition : Value) : Outcome Rule :=
  compileKeyframesIn settings definition

end AtomicStyle
