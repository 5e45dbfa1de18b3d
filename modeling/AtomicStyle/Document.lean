import AtomicStyle.Keyframes
import AtomicStyle.Namespace
import AtomicStyle.Sheet

/-!
# Style documents

A document has two optional sections: named keyframes and namespaces of styles.  Compiling it gives
one sheet for each direction and the manifest, which tells the identifier of each animation and the
classes of each property.

* `checkSections`, `sectionValue` - the sections, and the refusal of any other;
* `Bundle` - a compiled document;
* `compileDocument` - the bundle of a document, and `compileDocumentIn` with notes.
-/

namespace AtomicStyle

open Compiling

/-- The names of the sections of a document. -/
def sectionNames : List String := ["keyframes", "styles"]

/-- Whether a key names a section. -/
def isSectionKey : Key → Bool
  | .text s => sectionNames.contains s
  | .number _ => false

/-- The keys of a document that name no section, in ascending order.  Numbers and texts have no
order among them. -/
def unknownKeys (document : List (Key × Value)) : Outcome (List Key) :=
  let unknown := (document.map Prod.fst).filter fun key => !isSectionKey key
  let texts := unknown.filterMap fun key =>
    match key with
    | .text s => some s
    | .number _ => none
  let numbers := unknown.filterMap fun key =>
    match key with
    | .text _ => none
    | .number n => some n
  match texts, numbers with
  | _ :: _, _ :: _ => fault .unorderedKeys
  | _, [] => .ok ((texts.mergeSort fun a b => decide (a ≤ b)).map .text)
  | [], _ => .ok ((numbers.mergeSort fun a b => decide (a ≤ b)).map .number)

/-- Refuses a document with a key that names no section. -/
def checkSections (document : List (Key × Value)) : Outcome Unit := do
  match ← unknownKeys document with
  | [] => pure ()
  | key :: keys =>
    reject
      { reason := .unknownSection key.plain
        fragment := .list ((key :: keys).map Key.toValue) }

/-- The section of a document, or an empty mapping when it is missing or counts as absent. -/
def sectionValue (document : List (Key × Value)) (name : String) : Value :=
  match document.lookup (.text name) with
  | some v => if v.isEmptyLike then .map [] else v
  | none => .map []

/-- A compiled document. -/
structure Bundle where
  sheet : Sheet
  /-- The identifier of each animation. -/
  keyframes : List (Key × String)
  /-- The classes of each property of each namespace. -/
  styles : List (Key × ClassMap)

/-- The number of rules of a compiled document. -/
def Bundle.ruleCount (b : Bundle) : Nat :=
  b.sheet.size

/-- A rule under its own identifier. -/
def Rule.entry (r : Rule) : String × Rule :=
  (r.identifier, r)

/-- The sheet of compiled keyframes. -/
def animationSheet (animations : List (Key × Rule)) : Sheet :=
  ({} : Sheet).addAll (animations.map fun a => a.2.entry)

/-- The rules of compiled namespaces in order, under their identifiers. -/
def namespaceRules (namespaces : List CompiledNamespace) : List (String × Rule) :=
  namespaces.flatMap fun n => n.rules.map Rule.entry

/-- The bundle of compiled keyframes and namespaces: their rules go into one sheet, the keyframes
first. -/
def bundle (animations : List (Key × Rule)) (namespaces : List CompiledNamespace) : Bundle where
  sheet := (animationSheet animations).addAll (namespaceRules namespaces)
  keyframes := animations.map fun (name, rule) => (name, rule.identifier)
  styles := namespaces.map fun n => (n.name, n.classes)

/-- A note for each rule that a sheet passes over because it holds the identifier already. -/
def duplicateNotes (sheet : Sheet) : List (String × Rule) → List Note
  | [] => []
  | (name, rule) :: rest =>
    if sheet.holds name then
      { level := 3, text := "Skipping duplicate rule " ++ name } :: duplicateNotes sheet rest
    else duplicateNotes (sheet.add name rule) rest

section

variable {m : Type → Type} [Compiling m]

/-- The rules of named keyframes definitions, under their names.  They go into the sheet one by
one. -/
def compileAnimationEntriesIn (settings : Settings) (sheet : Sheet) :
    List (Key × Value) → m (List (Key × Rule))
  | [] => pure []
  | (name, definition) :: rest => do
    let rule ← compileKeyframesIn settings definition
    leave (duplicateNotes sheet [rule.entry])
    let others ← compileAnimationEntriesIn settings (sheet.add rule.identifier rule) rest
    pure ((name, rule) :: others)

/-- The rules of the keyframes of a document, under their names. -/
def compileAnimationsIn (settings : Settings) (definitions : Value) :
    m (List (Key × Rule)) := do
  let entries ← step (entriesOf definitions)
  compileAnimationEntriesIn settings {} entries

/-- The bundle of a document. -/
def compileDocumentIn (settings : Settings) (document : List (Key × Value)) : m Bundle := do
  step (checkSections document)
  let animations ← compileAnimationsIn settings (sectionValue document "keyframes")
  let namespaces ← compileNamespacesIn settings (sectionValue document "styles")
  leave (duplicateNotes (animationSheet animations) (namespaceRules namespaces))
  let b := bundle animations namespaces
  note 1 ("Stylesheet holds " ++ String.ofList (Numeral.decimal b.ruleCount) ++ " unique rules")
  pure b

end

/-- The bundle of a document. -/
def compileDocument (settings : Settings) (document : List (Key × Value)) : Outcome Bundle :=
  compileDocumentIn settings document

end AtomicStyle
