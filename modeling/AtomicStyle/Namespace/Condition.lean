import AtomicStyle.Rule.Context
import AtomicStyle.Value

/-!
# Conditional values

In a namespace a property may map conditions to values: `default`, a pseudo selector or an at-rule,
nested in any way.  Walking such a tree from left to right gives its leaves, each under the context
that the conditions on its path make up.  The walk stops at the first key that is no condition, and
the leaves met before it count.

* `Condition`, `Condition.ofText?` - the conditions;
* `Walk` - the leaves met, and what stopped the walk;
* `walk` - the walk through a value.
-/

namespace AtomicStyle

/-- A condition of a conditional value. -/
inductive Condition where
  | always
  | pseudo (selector : String)
  | atRule (rule : String)
deriving DecidableEq, Repr

namespace Condition

/-- The condition that a text stands for, if it is one. -/
def ofText? (s : String) : Option Condition :=
  if s = "default" then some .always
  else if Context.beginsWith ':' s then some (.pseudo s)
  else if Context.beginsWith '@' s then some (.atRule s)
  else none

/-- The context inside a condition. -/
def enter (c : Context) : Condition → Context
  | always => c
  | pseudo selector => c.pushPseudo selector
  | atRule rule => c.pushAtRule rule

end Condition

/-- The leaves met on a walk through a conditional value, each with its context, and the failure
that stopped the walk, if any. -/
structure Walk where
  leaves : List (Context × Value) := []
  stopped : Option Failure := none

namespace Walk

/-- The walk that goes on with another one unless it was stopped. -/
def append (a b : Walk) : Walk :=
  match a.stopped with
  | some _ => a
  | none => { leaves := a.leaves ++ b.leaves, stopped := b.stopped }

/-- What was made of the leaves, if the walk was not stopped. -/
def finish {α : Type} (w : Walk) (a : α) : Outcome α :=
  match w.stopped with
  | some failure => .error failure
  | none => .ok a

/-- All leaves, of a walk that was not stopped. -/
def toOutcome (w : Walk) : Outcome (List (Context × Value)) :=
  w.finish w.leaves

@[simp] theorem append_stopped {a b : Walk} {failure : Failure} (h : a.stopped = some failure) :
    a.append b = a := by
  simp [append, h]

end Walk

/-- The context inside the condition that a key stands for; `whole` is the mapping that holds the
key. -/
def enterKey (property : Key) (whole : Value) (context : Context) : Key → Outcome Context
  | .number _ => fault .numericKey
  | .text s =>
    match Condition.ofText? s with
    | some condition => .ok (condition.enter context)
    | none =>
      reject { reason := .unknownCondition s, property := property.plain, fragment := whole }

mutual

/-- The walk through a value from a context.  A value that is no mapping is a leaf. -/
def walk (property : Key) (context : Context) : Value → Walk
  | .map entries => walkEntries property (.map entries) context entries
  | .null => { leaves := [(context, .null)] }
  | .bool b => { leaves := [(context, .bool b)] }
  | .int n => { leaves := [(context, .int n)] }
  | .float x => { leaves := [(context, .float x)] }
  | .text s => { leaves := [(context, .text s)] }
  | .list items => { leaves := [(context, .list items)] }

/-- The walk through the entries of the mapping `whole`. -/
def walkEntries (property : Key) (whole : Value) (context : Context) :
    List (Key × Value) → Walk
  | [] => {}
  | (key, value) :: rest =>
    match enterKey property whole context key with
    | .error failure => { stopped := some failure }
    | .ok inner =>
      (walk property inner value).append (walkEntries property whole context rest)

end

/-- A walk through a leaf meets that leaf only. -/
theorem walk_of_leaf {property : Key} {context : Context} {value : Value} (h : value.kind ≠ .map) :
    walk property context value = { leaves := [(context, value)] } := by
  cases value with
  | map entries => exact absurd rfl h
  | _ => rfl

end AtomicStyle
