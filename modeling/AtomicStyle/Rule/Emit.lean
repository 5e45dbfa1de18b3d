import AtomicStyle.Declaration
import AtomicStyle.Rule.Context

/-!
# The text of a rule

Rules are written without any blank beyond those inside their parts:

* declarations as `property:value;` one after the other;
* a class rule as `.name:pseudo` with its declarations in braces, wrapped in its at-rules;
* keyframes as `@keyframes name` with one block for each frame.
-/

namespace AtomicStyle

/-- A text in braces. -/
def braced (text : String) : String :=
  "\x7b" ++ text ++ "\x7d"

/-- One declaration. -/
def emitPair (property value : String) : String :=
  property ++ ":" ++ value ++ ";"

/-- The declarations of a set in order. -/
def emitDeclarations (s : DeclarationSet) : String :=
  String.join (s.items.map fun (property, value) => emitPair property value)

/-- The frames of an animation in order, each under its selector. -/
def emitFrames (frames : List (String × DeclarationSet)) : String :=
  String.join (frames.map fun (selector, s) => selector ++ braced (emitDeclarations s))

/-- The frames of an animation under its name. -/
def emitKeyframes (name : String) (frames : List (String × DeclarationSet)) : String :=
  "@keyframes " ++ name ++ braced (emitFrames frames)

/-- The selector of a class under the pseudo selectors of a context. -/
def emitSelector (name : String) (context : Context) : String :=
  "." ++ name ++ String.join context.pseudos

/-- A text wrapped in at-rules, the first of them outermost. -/
def wrapAtRules (atRules : List String) (text : String) : String :=
  atRules.foldr (fun atRule inner => atRule ++ braced inner) text

/-- The rule of a class under a context. -/
def emitRule (name : String) (s : DeclarationSet) (context : Context) : String :=
  wrapAtRules context.atRules (emitSelector name context ++ braced (emitDeclarations s))

end AtomicStyle
