import AtomicStyle.Namespace.ClassMap
import AtomicStyle.Namespace.Condition
import AtomicStyle.Rule

/-!
# Namespaces of styles

A namespace is a style whose values may be conditional or absent.  Each property and condition
becomes a rule of its own, so that equal declarations share a class wherever they occur.  An absent
value gives no rule; a property without any rule maps to nothing.

* `compileLeavesIn`, `compilePropertyIn` - the rules of one property;
* `compileNamespaceIn` - the class map and the rules of a namespace;
* `compileNamespaces` - those of all namespaces of a document.
-/

namespace AtomicStyle

open Compiling

/-- A compiled namespace: the classes of its properties and its rules, in order. -/
structure CompiledNamespace where
  name : Key
  classes : ClassMap
  rules : List Rule

section

variable {m : Type → Type} [Compiling m]

/-- The rules of the leaves of a property in order.  An absent leaf gives none. -/
def compileLeavesIn (settings : Settings) (property : Key) :
    List (Context × Value) → m (List Rule)
  | [] => pure []
  | (_, .null) :: rest => compileLeavesIn settings property rest
  | (context, leaf) :: rest => do
    let rule ← compileBlockIn settings context (.map [(property, leaf)])
    let rules ← compileLeavesIn settings property rest
    pure (rule :: rules)

/-- The rules of a property.  The leaves in front of a bad condition are compiled first, so their
failures come first. -/
def compilePropertyIn (settings : Settings) (property : Key) (value : Value) :
    m (List Rule) := do
  let w := walk property {} value
  let rules ← compileLeavesIn settings property w.leaves
  step (w.finish rules)

/-- The classes and rules of the properties of a namespace. -/
def compilePropertiesIn (settings : Settings) :
    List (Key × Value) → m (ClassMap × List Rule)
  | [] => pure ([], [])
  | (property, value) :: rest => do
    let rules ← compilePropertyIn settings property value
    let (classes, others) ← compilePropertiesIn settings rest
    pure ((property, classText? (rules.map Rule.identifier)) :: classes, rules ++ others)

/-- One compiled namespace. -/
def compileNamespaceIn (settings : Settings) (name : Key) (style : Value) :
    m CompiledNamespace :=
  match style with
  | .map entries => do
    let (classes, rules) ← compilePropertiesIn settings entries
    note 2 ("Namespace '" ++ name.plain ++ "': " ++
      String.ofList (Numeral.decimal classes.length) ++ " properties")
    pure { name := name, classes := classes, rules := rules }
  | v =>
    step (reject { reason := .namespaceNotStyle, property := name.plain, fragment := v })

/-- The compiled namespaces of the entries of a section, in order. -/
def compileNamespaceEntriesIn (settings : Settings) :
    List (Key × Value) → m (List CompiledNamespace)
  | [] => pure []
  | (name, style) :: rest => do
    let first ← compileNamespaceIn settings name style
    let others ← compileNamespaceEntriesIn settings rest
    pure (first :: others)

/-- The compiled namespaces of a value that must be a mapping. -/
def compileNamespacesIn (settings : Settings) (namespaces : Value) :
    m (List CompiledNamespace) := do
  let entries ← step (entriesOf namespaces)
  compileNamespaceEntriesIn settings entries

end

/-- The compiled namespaces of a value that must be a mapping. -/
def compileNamespaces (settings : Settings) (namespaces : Value) :
    Outcome (List CompiledNamespace) :=
  compileNamespacesIn settings namespaces

end AtomicStyle
