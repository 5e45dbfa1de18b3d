import AtomicStyle.Direction.Counterpart
import AtomicStyle.Rule.Emit
import AtomicStyle.Rule.Identifier
import AtomicStyle.Rule.Priority

/-!
# Compiled rules

Compiling a style gives one rule: its identifier, its text for left-to-right documents, its text
for right-to-left documents when that differs, and its priority.  The identifier is derived from
the left-to-right text alone.

* `Rule` - a compiled rule;
* `compileBlock` - the rule of a flat style under a context; `compileBlockIn` with notes.
-/

namespace AtomicStyle

open Compiling

/-- A compiled rule. -/
structure Rule where
  identifier : String
  /-- The text for left-to-right documents. -/
  ltr : String
  /-- The text for right-to-left documents, when it differs. -/
  rtl : Option String
  /-- The place of the rule among others: rules are emitted by ascending priority. -/
  priority : Int
deriving DecidableEq, Repr

/-- The text for right-to-left documents. -/
def Rule.rtlText (r : Rule) : String :=
  r.rtl.getD r.ltr

/-- Refuses the entries of a style whose value is no scalar. -/
def checkScalars : List (Key × Value) → Outcome Unit
  | [] => .ok ()
  | (key, value) :: rest =>
    match value with
    | .map _ =>
      reject { reason := .conditionalValue, property := key.plain, fragment := value }
    | .null => reject { reason := .missingValue, property := key.plain, fragment := value }
    | _ => checkScalars rest

/-- The text from which the identifier of a class rule is derived: its declarations, its pseudo
selectors and its at-rules. -/
def canonicalText (s : DeclarationSet) (context : Context) : String :=
  emitDeclarations s ++ String.join context.pseudos ++ String.join context.atRules

/-- The class rule of resolved declarations, and of their right-to-left counterpart if they need
one, under a context in its canonical spelling. -/
def ruleOf (settings : Settings) (s : DeclarationSet) (other : Option DeclarationSet)
    (context : Context) : Rule :=
  let name := identifier .block (canonicalText s context) settings.classPrefix.text
  { identifier := name
    ltr := emitRule name s context
    rtl := other.map fun o => emitRule name o context
    priority := priority .block context s.declarations }

/-- The entries of a style that has any. -/
def styleEntries (style : Value) : Outcome (List (Key × Value)) :=
  match style with
  | .map (entry :: entries) => .ok (entry :: entries)
  | _ => reject { reason := .emptyStyle, fragment := style }

/-- The class rule of a flat style under a context. -/
def compileBlockIn {m : Type → Type} [Compiling m] (settings : Settings) (context : Context)
    (style : Value) : m Rule := do
  let entries ← step (styleEntries style)
  step (checkScalars entries)
  let context ← step context.tidy
  let s ← resolveEntriesIn settings .ltr {} entries
  let (_, other) ← withCounterpartIn settings s
  let rule := ruleOf settings s other context
  note 2 ("Compiled rule " ++ rule.identifier ++ ": " ++ rule.ltr)
  pure rule

/-- The class rule of a flat style under a context. -/
def compileBlock (settings : Settings) (context : Context) (style : Value) : Outcome Rule :=
  compileBlockIn settings context style

end AtomicStyle
