import AtomicStyle.Value.Display

/-!
# Failures

A compilation fails in one of two ways.  A **rejection** is a judgement about the input: it says
why the input is no style, and names the property, the keyframes selector and the fragment
concerned.  A **fault** is a limit of the compiler's own arithmetic or tables met on the way: a
number beyond the range of doubles, a text that is empty where a first character is wanted, a
section of the wrong shape.  Both end the compilation; a rejection alone can be located inside a
keyframes selector.

* `Reason`, `Rejection`, `Rejection.message` - rejections and their text;
* `Fault`, `Fault.message` - faults and their text;
* `Failure`, `Outcome` - either of them, and the result of anything that may fail;
* `atSelector` - a failure located inside a keyframes selector.
-/

namespace AtomicStyle

/-- The families of rejections. -/
inductive RejectionKind where
  | general
  | unsupportedValue
  | unknownProperty
  | malformedKeyframes
deriving DecidableEq, Repr

/-- Why an input is rejected. -/
inductive Reason where
  /-- A boolean stands where a number is wanted. -/
  | booleanValue
  /-- A number is infinite or undefined. -/
  | notFinite
  /-- A number is given to a property that takes none. -/
  | noNumericValue
  /-- A text is empty after trimming. -/
  | emptyText
  /-- A text would end its declaration or carry the following text into it. -/
  | endsDeclaration
  /-- A component of a text is not in the property's domain. -/
  | badComponent (component : String)
  /-- A value is neither a number nor a text. -/
  | unsupportedKind (kind : ValueKind)
  /-- A mapping stands where a scalar is wanted. -/
  | conditionalValue
  /-- Nothing stands where a scalar is wanted. -/
  | missingValue
  /-- A style has no property. -/
  | emptyStyle
  /-- A pseudo selector does not start with a colon. -/
  | badPseudo
  /-- An at-rule does not start with an at sign. -/
  | badAtRule
  /-- A condition is none of the three kinds. -/
  | unknownCondition (condition : String)
  /-- A namespace is not a mapping. -/
  | namespaceNotStyle
  /-- A document has a section of an unknown name. -/
  | unknownSection (name : String)
  /-- A property is in no table. -/
  | unknownProperty
  /-- A keyframes definition has no frame. -/
  | noFrames
  /-- A frame selector is not a text. -/
  | selectorNotText
  /-- A frame selector is neither a keyword nor a percentage. -/
  | badSelector
  /-- A frame selector occurs twice. -/
  | duplicateSelector
  /-- A frame is not a mapping. -/
  | frameNotStyle
  /-- A reason given by the caller. -/
  | other (kind : RejectionKind) (text : String)
deriving DecidableEq, Repr

namespace Reason

/-- The family that a reason belongs to. -/
def kind : Reason → RejectionKind
  | unknownProperty => .unknownProperty
  | noFrames | selectorNotText | badSelector | duplicateSelector | frameNotStyle =>
    .malformedKeyframes
  | other kind _ => kind
  | _ => .unsupportedValue

/-- The wording of a reason. -/
def text : Reason → String
  | booleanValue => "Boolean is not a CSS value"
  | notFinite => "Numeric value must be finite"
  | noNumericValue => "Number given for a property that takes no numeric value"
  | emptyText => "Empty string value"
  | endsDeclaration => "Value would terminate the declaration"
  | badComponent component => "'" ++ component ++ "' is not a valid value here"
  | unsupportedKind kind => "Unsupported value type " ++ kind.name
  | conditionalValue => "Conditional value not allowed here"
  | missingValue => "Missing value"
  | emptyStyle => "Style object must have at least one property"
  | badPseudo => "Pseudo selector must start with ':'"
  | badAtRule => "At-rule must start with '@'"
  | unknownCondition condition => "Unknown condition '" ++ condition ++ "'"
  | namespaceNotStyle => "Namespace must be a style object"
  | unknownSection name => "Unknown document section '" ++ name ++ "'"
  | unknownProperty => "Unknown property"
  | noFrames => "Keyframes need at least one frame"
  | selectorNotText => "Frame selector must be a string"
  | badSelector => "Frame selector must be 'from', 'to' or a percentage"
  | duplicateSelector => "Duplicate frame selector"
  | frameNotStyle => "Frame must be a style object"
  | other _ text => text

end Reason

/-- A judgement that an input is no style, with the place and the fragment concerned. -/
structure Rejection where
  reason : Reason
  property : Option String := none
  selector : Option String := none
  fragment : Value := .null
deriving Repr

namespace Rejection

/-- The family of a rejection. -/
def kind (r : Rejection) : RejectionKind :=
  r.reason.kind

/-- The rejection located inside a keyframes selector, in place of any selector it had. -/
def inSelector (selector : String) (r : Rejection) : Rejection :=
  { r with selector := some selector }

/-- The places that a rejection names: the selector first, then the property. -/
def places (r : Rejection) : List String :=
  (r.selector.map fun s => "selector '" ++ s ++ "'").toList ++
    (r.property.map fun p => "property '" ++ p ++ "'").toList

/-- The reason, followed by the places and the fragment when any place is named. -/
def message (r : Rejection) : String :=
  match r.places with
  | [] => r.reason.text
  | places =>
    r.reason.text ++ " (" ++ String.intercalate ", " places ++ ": " ++ r.fragment.display ++ ")"

end Rejection

/-- A limit met by the compiler itself. -/
inductive Fault where
  /-- An integer is too large for a double. -/
  | integerTooLarge
  /-- A quotient of integers is too large for a double. -/
  | quotientTooLarge
  /-- A first character is wanted of an empty text. -/
  | noFirstCharacter
  /-- A word matches a side only through letters outside ASCII; it is held in lower case. -/
  | unknownSide (word : String)
  /-- A value other than a mapping is taken for one. -/
  | notMapping (kind : ValueKind)
  /-- A key that is a number is taken for a text. -/
  | numericKey
  /-- A value without a size is asked for one. -/
  | noSize (kind : ValueKind)
  /-- Numbers and texts among keys are put in order. -/
  | unorderedKeys
deriving DecidableEq, Repr

/-- The wording of a fault. -/
def Fault.message : Fault → String
  | integerTooLarge => "int too large to convert to float"
  | quotientTooLarge => "integer division result too large for a float"
  | noFirstCharacter => "string index out of range"
  | unknownSide word => String.ofList (Text.quoted word.toList)
  | notMapping kind => "'" ++ kind.name ++ "' object has no attribute 'items'"
  | numericKey => "'int' object has no attribute 'startswith'"
  | noSize kind => "object of type '" ++ kind.name ++ "' has no len()"
  | unorderedKeys => "'<' not supported between instances of 'int' and 'str'"

/-- The end of a compilation that gives no result. -/
inductive Failure where
  | rejected (rejection : Rejection)
  | fault (fault : Fault)
deriving Repr

/-- The wording of a failure. -/
def Failure.message : Failure → String
  | rejected r => r.message
  | fault f => f.message

/-- The failure located inside a keyframes selector, as far as it is a rejection. -/
def Failure.inSelector (selector : String) : Failure → Failure
  | rejected r => rejected (r.inSelector selector)
  | fault f => fault f

/-- The result of a step that may fail. -/
abbrev Outcome (α : Type) := Except Failure α

/-- The outcome that rejects an input. -/
def reject {α : Type} (r : Rejection) : Outcome α :=
  .error (.rejected r)

/-- The outcome that ends in a fault. -/
def fault {α : Type} (f : Fault) : Outcome α :=
  .error (.fault f)

/-- Locates a failure at a frame's selector. -/
def atSelector {α : Type} (selector : String) : Outcome α → Outcome α
  | .ok a => .ok a
  | .error failure => .error (failure.inSelector selector)

/-- Locating failures makes no difference to results. -/
theorem atSelector_eq_ok {α : Type} {selector : String} {x : Outcome α} {a : α} :
    atSelector selector x = .ok a ↔ x = .ok a := by
  cases x <;> simp [atSelector]

/-- Locating a failure is a way of changing it. -/
theorem atSelector_eq_mapError {α : Type} (selector : String) (x : Outcome α) :
    atSelector selector x = x.mapError (Failure.inSelector selector) := by
  cases x <;> rfl

end AtomicStyle
