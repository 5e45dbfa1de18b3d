import AtomicStyle.Failure
import AtomicStyle.Text.Blank

/-!
# Nesting contexts

A rule may hold only under conditions: pseudo selectors that are appended to its class, and at-rules
that are wrapped around it.  The two lists are independent; the order within each counts.

* `Context` - pseudo selectors and at-rules, the outermost first;
* `Context.tidy` - their canonical spelling, if each begins with its mark.
-/

namespace AtomicStyle

/-- The conditions that a rule is nested under. -/
structure Context where
  pseudos : List String := []
  atRules : List String := []
deriving DecidableEq, Repr

namespace Context

/-- The context with one more pseudo selector. -/
def pushPseudo (c : Context) (pseudo : String) : Context :=
  { c with pseudos := c.pseudos ++ [pseudo] }

/-- The context with one more at-rule, inside the others. -/
def pushAtRule (c : Context) (atRule : String) : Context :=
  { c with atRules := c.atRules ++ [atRule] }

/-- The canonical spelling of one condition. -/
def tidyText (text : String) : String :=
  String.ofList (Text.tidy text.toList)

/-- Whether the text begins with the character. -/
def beginsWith (mark : Char) (text : String) : Bool :=
  text.toList.head? == some mark

/-- The context in its canonical spelling.  A pseudo selector must begin with a colon and an at-rule
with an at sign; the first text that does not is rejected, pseudo selectors first. -/
def tidy (c : Context) : Outcome Context := do
  let pseudos := c.pseudos.map tidyText
  let atRules := c.atRules.map tidyText
  if let some pseudo := pseudos.find? fun p => !beginsWith ':' p then
    reject { reason := .badPseudo, fragment := .text pseudo }
  if let some atRule := atRules.find? fun a => !beginsWith '@' a then
    reject { reason := .badAtRule, fragment := .text atRule }
  pure { pseudos := pseudos, atRules := atRules }

end Context

end AtomicStyle
