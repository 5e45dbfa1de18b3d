import AtomicStyle.Direction.Flip
import AtomicStyle.Resolve

/-!
# The right-to-left counterpart of a declaration set

The counterpart of a declaration has its longhand and its source text resolved once more for the
other direction, and then its value flipped if the settings ask for it.  A set needs a counterpart
only when some declaration changes.

* `counterpartDeclaration`, `counterpart` - the counterpart of a declaration and of a set;
* `needsCounterpart` - whether the counterpart differs;
* `withCounterpart` - a set with its counterpart, if it needs one, and `withCounterpartIn` with
  notes.
-/

namespace AtomicStyle

open Compiling

/-- A declaration for the right-to-left direction. -/
def counterpartDeclaration (settings : Settings) (d : Declaration) : Outcome Declaration := do
  let property := physicalName settings .rtl d.origin
  let value := physicalValue settings .rtl property d.sourceValue.toList
  let value ← if settings.flipsValues then Flip.flipValue property value else pure value
  pure { d with property := property, value := String.ofList value }

/-- Whether two declarations differ in property or value. -/
def Declaration.differs (d e : Declaration) : Bool :=
  d.property != e.property || d.value != e.value

/-- The first declaration that differs from its counterpart.  The search ends there, so a fault in
the counterpart of a later one is not met. -/
def firstSensitive? (settings : Settings) : List Declaration → Outcome (Option Declaration)
  | [] => .ok none
  | d :: ds => do
    let other ← counterpartDeclaration settings d
    if other.differs d then pure (some d) else firstSensitive? settings ds

/-- Whether a set reads differently for the right-to-left direction. -/
def needsCounterpart (settings : Settings) (s : DeclarationSet) : Outcome Bool := do
  let sensitive ← firstSensitive? settings s.declarations
  pure sensitive.isSome

/-- The right-to-left counterpart of a set.  It has as many declarations, in the same order. -/
def counterpart (settings : Settings) (s : DeclarationSet) : Outcome DeclarationSet := do
  let declarations ← s.declarations.mapM (counterpartDeclaration settings)
  pure (.ofList declarations false)

/-- A set with its right-to-left counterpart, if it needs one. -/
def withCounterpartIn {m : Type → Type} [Compiling m] (settings : Settings) (s : DeclarationSet) :
    m (DeclarationSet × Option DeclarationSet) := do
  match ← step (firstSensitive? settings s.declarations) with
  | some d =>
    note 3 ("Direction-sensitive: " ++ d.property ++ ":" ++ d.value)
    let other ← step (counterpart settings s)
    pure (s, some other)
  | none => pure (s, none)

/-- A set with its right-to-left counterpart, if it needs one. -/
def withCounterpart (settings : Settings) (s : DeclarationSet) :
    Outcome (DeclarationSet × Option DeclarationSet) :=
  withCounterpartIn settings s

end AtomicStyle
