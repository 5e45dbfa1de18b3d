import AtomicStyle.Css.Component
import AtomicStyle.Css.Components
import AtomicStyle.Css.Duration
import AtomicStyle.Css.Importance
import AtomicStyle.Css.Terminator
import AtomicStyle.Property.Domain
import AtomicStyle.Property.Name

/-!
# The canonical text of a value

Each value of a style becomes one canonical text for the property it is given to, so that all
spellings of the same declaration are emitted, and hashed, alike.

**Numbers.**  A bare number is written with the unit of the property's domain: pixels for a length,
the canonical unit of a duration for a time, nothing otherwise.

**Texts.**  A text is tidied, its importance mark is cut off, its body is adapted by the rule of
the property (`adaptBody`), and the mark is put back.  A body that would end the declaration is
rejected, strict or not; strict checking also asks for components of the property's domain.

* `numberText`, `stringText` - the text of a number and of a text;
* `valueText` - the text of any value.
-/

namespace AtomicStyle.Property

open Css Text

/-- The canonical text of a number for a property. -/
def numberText (strict : Bool) (property : String) (n : Numeric) : Outcome (List Char) := do
  unless ← n.isFinite do
    reject { reason := .notFinite, property := property, fragment := n.toValue }
  let text ← n.format
  match domain? property with
  | some .number => pure text
  | some .time => n.formatDuration
  | some .length => pure (text ++ ['p', 'x'])
  | _ =>
    if strict && !isCustom property then
      reject { reason := .noNumericValue, property := property, fragment := n.toValue }
    else pure text

/-- The body put between double quotes, with a backslash before each double quote inside. -/
def quoteBody (body : List Char) : List Char :=
  '"' :: body.flatMap (fun c => if c = '"' then ['\\', '"'] else [c]) ++ ['"']

/-- The body of a `content` value: a keyword, a quoted text or a function call stands as it is, and
any other text is put between quotes.  An empty body has no first character to tell them by. -/
def contentBody (body : List Char) : Outcome (List Char) :=
  if isKeyword contentKeywords body || isKeyword globalKeywords body then .ok body
  else
    match body with
    | [] => fault .noFirstCharacter
    | c :: _ =>
      if c = '"' || c = '\'' || isCall body then .ok body else .ok (quoteBody body)

/-- The body of a value adapted by the rule of its property: names in a list of properties take
their canonical spelling, generated content is quoted, and durations take their canonical unit. -/
def adaptBody (property : String) (body : List Char) : Outcome (List Char) :=
  if takesPropertyNames property then
    .ok (joinWith ',' ((components [','] body).map dashedChars))
  else if property = "content" then contentBody body
  else if domain? property = some .time then .ok (canonicalizeDurations body)
  else .ok body

/-- The check that strict mode makes on each component of a value. -/
def componentCheck? (property : String) : Option (List Char → Bool) :=
  match domain? property with
  | some .length => some isLengthComponent
  | some .time => some isTimeComponent
  | some .number => if takesGridLines property then none else some isNumberComponent
  | _ => none

/-- The first component of a value that strict mode refuses. -/
def refusedComponent? (property : String) (body : List Char) : Option (List Char) :=
  if isCustom property then none
  else
    match componentCheck? property with
    | none => none
    | some check => (components [' ', '/', ','] body).find? fun c => !check c

/-- The canonical text of a text value for a property. -/
def stringText (strict : Bool) (property : String) (value : String) : Outcome (List Char) := do
  let text := tidy value.toList
  if text = [] then
    reject { reason := .emptyText, property := property, fragment := .text value }
  let (plain, important) := splitImportance text
  let body ← adaptBody property plain
  if (terminator? body).isSome then
    reject { reason := .endsDeclaration, property := property, fragment := .text value }
  if strict then
    if let some component := refusedComponent? property body then
      reject
        { reason := .badComponent (String.ofList component)
          property := property
          fragment := .text value }
  pure (attachImportance body important)

/-- The canonical text of a numeric value; a boolean is no number. -/
def numericText (strict : Bool) (property : String) : Value → Outcome (List Char)
  | .bool b => reject { reason := .booleanValue, property := property, fragment := .bool b }
  | .int n => numberText strict property (.int n)
  | .float x => numberText strict property (.float x)
  | v => reject { reason := .unsupportedKind v.kind, property := property, fragment := v }

/-- The canonical text of a value for a property. -/
def valueText (strict : Bool) (property : String) : Value → Outcome (List Char)
  | .int n => numberText strict property (.int n)
  | .float x => numberText strict property (.float x)
  | .text s => stringText strict property s
  | v => reject { reason := .unsupportedKind v.kind, property := property, fragment := v }

end AtomicStyle.Property
