import AtomicStyle.Css.Importance
import AtomicStyle.Declaration
import AtomicStyle.Property.Domain
import AtomicStyle.Rule.Context
import AtomicStyle.Rule.Identifier
import AtomicStyle.Text.LowerCase

/-!
# The rank of a rule in the cascade

Rules are emitted by ascending rank, so that a rule with more specific conditions comes later and
wins.  A class rule has the highest rank among its features; keyframes have a rank of their own.

* `Rank` - the ranks, ascending;
* `pseudoLevel`, `atRuleLevel`, `declarationLevel` - the levels of the features;
* `priority` - the rank of a rule as a number.
-/

namespace AtomicStyle

/-- The ranks of rules, ascending. -/
inductive Rank where
  | plain
  | keyframes
  | pseudoClass
  | pseudoElement
  | atRule
  | animationReference
  | important
deriving DecidableEq, Repr

/-- The place of a rank in the order. -/
def Rank.level : Rank → Nat
  | .plain => 0
  | .keyframes => 1
  | .pseudoClass => 2
  | .pseudoElement => 3
  | .atRule => 4
  | .animationReference => 5
  | .important => 6

/-- Whether a pseudo selector names an element: it begins with two colons, or is one of the four
that may be written with a single one. -/
def isPseudoElement (pseudo : String) : Bool :=
  pseudo.toList.take 2 == [':', ':'] ||
    [":before", ":after", ":first-line", ":first-letter"].contains
      (String.ofList (Text.lower pseudo.toList))

/-- The level of the pseudo selectors of a rule. -/
def pseudoLevel (pseudos : List String) : Nat :=
  if pseudos.isEmpty then Rank.plain.level
  else if pseudos.any isPseudoElement then Rank.pseudoElement.level
  else Rank.pseudoClass.level

/-- The level of the at-rules around a rule. -/
def atRuleLevel (atRules : List String) : Nat :=
  if atRules.isEmpty then Rank.plain.level else Rank.atRule.level

/-- Whether a value carries an importance mark. -/
def isImportant (value : String) : Bool :=
  (Css.splitImportance value.toList).2

/-- The level of one declaration: an importance mark outranks a reference to keyframes. -/
def declarationLevel (d : Declaration) : Nat :=
  if isImportant d.value then Rank.important.level
  else if Property.namesAnimation d.origin || Property.namesAnimation d.property then
    Rank.animationReference.level
  else Rank.plain.level

/-- The priority of a rule: the rank of keyframes, or the highest level among the features of a
class rule. -/
def priority (category : Category) (context : Context) (ds : List Declaration) : Nat :=
  match category with
  | .keyframes => Rank.keyframes.level
  | .block =>
    max (max (pseudoLevel context.pseudos) (atRuleLevel context.atRules))
      (ds.foldl (fun level d => max level (declarationLevel d)) 0)

end AtomicStyle
