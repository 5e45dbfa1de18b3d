import AtomicStyle.Declaration
import AtomicStyle.Property.Known
import AtomicStyle.Property.ValueText
import AtomicStyle.Settings
import AtomicStyle.Trace

/-!
# Resolving a style

A style maps property names to values.  Each entry resolves in four steps: its name takes the
canonical spelling, a shorthand is expanded into longhands, a logical longhand gets the name that
the settings and the direction ask for, and its value becomes the canonical text for that name.  A
name that no table holds passes through, unless the settings ask for known properties only.

* `expand` - a property and value as longhands with values of their own;
* `physicalName`, `physicalValue` - what the direction decides;
* `resolve` - one entry; `resolveStyle` - a whole style;
* `resolveIn`, `resolveEntriesIn` - an entry, and the entries of a style, with notes.
-/

namespace AtomicStyle

open Css Property Compiling

/-- A name that is relative to the direction, as the settings ask for it. -/
def Settings.render (settings : Settings) (direction : Direction) (l : Logical) : String :=
  if settings.isPhysical then l.physical direction else l.agnostic

/-- The property name under which a longhand is emitted. -/
def physicalName (settings : Settings) (direction : Direction) (longhand : String) : String :=
  match logical? longhand with
  | some l => settings.render direction l
  | none => longhand

/-- The text under which a canonical text is emitted: a keyword relative to the direction is
rendered, and an importance mark behind it is kept. -/
def physicalValue (settings : Settings) (direction : Direction) (property : String)
    (value : List Char) : List Char :=
  if takesLogicalKeyword property then
    let (body, important) := splitImportance value
    match logicalKeyword? (String.ofList (Text.lower body)) with
    | some l => attachImportance (settings.render direction l).toList important
    | none => value
  else value

/-- The components of a shorthand's text value dealt out to its longhands, each with the importance
mark of the whole.  A text cannot be dealt out when it has a slash outside its importance mark or a
number of components that the shorthand has no layout for. -/
def dealOut? (s : Shorthand) (value : String) : Option (List (String × Value)) :=
  let (body, important) := splitImportance (Text.trim value.toList)
  let parts := components [' '] body
  match s.layout? parts.length with
  | none => none
  | some layout =>
    if body.contains '/' then none
    else
      some ((s.longhands.zip layout).map fun (longhand, i) =>
        (longhand, .text (String.ofList (attachImportance (parts.getD i []) important))))

/-- A property and its value as longhands with values of their own.  A value that is no text goes
to every longhand; a text is dealt out when it can be, and otherwise the shorthand stays as it
is. -/
def expand (property : String) (value : Value) : List (String × Value) :=
  match shorthand? property, value with
  | none, value => [(property, value)]
  | some s, .text t => (dealOut? s t).getD [(property, value)]
  | some s, value => s.longhands.map fun longhand => (longhand, value)

/-- The declaration of one longhand. -/
def resolveLonghand (settings : Settings) (direction : Direction) (longhand : String)
    (value : Value) : Outcome Declaration := do
  let property := physicalName settings direction longhand
  let text ← valueText settings.strictValues property value
  let mapped := physicalValue settings direction property text
  pure
    { property := property
      value := String.ofList mapped
      origin := longhand
      originValue := if mapped = text then none else some (String.ofList text) }

/-- Refuses a name that no table holds when the settings ask for known properties. -/
def checkKnown (settings : Settings) (name : String) (value : Value) : Outcome Unit :=
  if settings.strictProperties && !isKnown (dashed name) then
    reject { reason := .unknownProperty, property := name, fragment := value }
  else .ok ()

/-- The text of a property key.  A number is no property. -/
def propertyKey : Key → Outcome String
  | .text s => .ok s
  | .number _ => fault .numericKey

/-- Whether a value is a number. -/
def Value.isNumeric : Value → Bool
  | .int _ | .float _ => true
  | _ => false

/-- Whether numbers are written bare for a property because no table says otherwise. -/
def hasNoUnitRule (property : String) : Bool :=
  domain? property = none || domain? property = some .plain

/-- What is noted of the declaration of a longhand of the entry `name`. -/
def declarationNotes (name : String) (value : Value) (d : Declaration) : List Note :=
  let bare : Note :=
    { level := 3
      text := "No unit rule for '" ++ d.property ++ "', emitting bare number " ++ d.sourceValue }
  let resolved : Note := { level := 3, text := name ++ " -> " ++ d.property ++ ":" ++ d.value }
  if value.isNumeric && hasNoUnitRule d.property then [bare, resolved] else [resolved]

/-- Whether a shorthand stays whole because its text cannot be dealt out. -/
def staysWhole (property : String) (value : Value) : Bool :=
  match shorthand? property, value with
  | some s, .text t => (dealOut? s t).isNone
  | _, _ => false

section

variable {m : Type → Type} [Compiling m]

/-- The declarations of longhands of the entry `name` with their values, in order. -/
def resolveLonghandsIn (settings : Settings) (direction : Direction) (name : String) :
    List (String × Value) → m (List Declaration)
  | [] => pure []
  | (longhand, value) :: rest => do
    let declaration ← step (resolveLonghand settings direction longhand value)
    leave (declarationNotes name value declaration)
    let declarations ← resolveLonghandsIn settings direction name rest
    pure (declaration :: declarations)

/-- The declarations of one entry of a style. -/
def resolveIn (settings : Settings) (direction : Direction) (name : String) (value : Value) :
    m DeclarationSet := do
  step (checkKnown settings name value)
  noteIf (staysWhole (dashed name) value) 3
    ("Keeping '" ++ dashed name ++ ": " ++ value.plain ++ "' unexpanded")
  let declarations ←
    resolveLonghandsIn settings direction name (expand (dashed name) value)
  pure (.ofList declarations)

/-- The declarations of the entries of a style, added to those resolved before. -/
def resolveEntriesIn (settings : Settings) (direction : Direction) (before : DeclarationSet) :
    List (Key × Value) → m DeclarationSet
  | [] => pure before
  | (key, value) :: rest => do
    let name ← step (propertyKey key)
    let resolved ← resolveIn settings direction name value
    resolveEntriesIn settings direction (before.extend resolved) rest

end

/-- The declarations of one entry of a style. -/
def resolve (settings : Settings) (direction : Direction) (name : String) (value : Value) :
    Outcome DeclarationSet :=
  resolveIn settings direction name value

@[simp] theorem resolveIn_outcome (settings : Settings) (direction : Direction) (name : String)
    (value : Value) :
    resolveIn (m := Outcome) settings direction name value =
      resolve settings direction name value := rfl

/-- Without notes longhands are resolved one by one, whatever entry they belong to. -/
theorem resolveLonghandsIn_outcome (settings : Settings) (direction : Direction) (name : String)
    (longhands : List (String × Value)) :
    resolveLonghandsIn (m := Outcome) settings direction name longhands =
      longhands.mapM fun l => resolveLonghand settings direction l.1 l.2 := by
  induction longhands with
  | nil => rfl
  | cons l rest ih =>
    rw [List.mapM_cons, ← ih]
    rfl

/-- What an entry resolves to depends on its name only through the check and the longhands. -/
theorem resolve_eq (settings : Settings) (direction : Direction) (name : String) (value : Value) :
    resolve settings direction name value = (do
      checkKnown settings name value
      let declarations ← (expand (dashed name) value).mapM fun (l : String × Value) =>
        resolveLonghand settings direction l.1 l.2
      pure (.ofList declarations)) := by
  rw [← resolveLonghandsIn_outcome settings direction name]
  rfl

/-- The entries of a value that must be a mapping. -/
def entriesOf : Value → Outcome (List (Key × Value))
  | .map entries => .ok entries
  | v => fault (.notMapping v.kind)

/-- The declarations of a style.  A later entry that resolves to a property already there takes its
place. -/
def resolveStyle (settings : Settings) (direction : Direction) (style : Value) :
    Outcome DeclarationSet := do
  let entries ← entriesOf style
  resolveEntriesIn settings direction {} entries

end AtomicStyle
