import AtomicStyle.Text.LowerCase

/-!
# Property names

A style may name a property in camel case or with dashes; the dashed lower-case spelling is the
canonical one.  A dash is set in front of each ASCII capital that follows a small ASCII letter or
opens the name, which also gives a vendor name such as `WebkitAppearance` its leading dash.  The
vendor name `ms`, which is written small, gets its dash separately.  Custom properties keep their
spelling.

* `insertDashes` - the dashes in front of capitals;
* `dashed` - the canonical spelling of a name.
-/

namespace AtomicStyle.Property

/-- Whether a capital behind the given character, or at the start, begins a new word. -/
def beginsWord : Option Char → Bool
  | none => true
  | some c => 'a' ≤ c && c ≤ 'z'

/-- The name with a dash in front of each capital that begins a word; `before` is the character in
front of the name. -/
def insertDashes (before : Option Char) : List Char → List Char
  | [] => []
  | c :: cs =>
    if c.isUpper && beginsWord before then '-' :: c :: insertDashes (some c) cs
    else c :: insertDashes (some c) cs

/-- The dash in front of the vendor name `ms`. -/
def markVendor : List Char → List Char
  | 'm' :: 's' :: '-' :: rest => '-' :: 'm' :: 's' :: '-' :: rest
  | name => name

/-- The characters of the canonical spelling of a property name. -/
def dashedChars : List Char → List Char
  | '-' :: '-' :: rest => '-' :: '-' :: rest
  | name => markVendor (Text.lower (insertDashes none name))

/-- The canonical spelling of a property name. -/
def dashed (name : String) : String :=
  String.ofList (dashedChars name.toList)

/-- A custom property keeps its spelling. -/
@[simp] theorem dashedChars_custom (rest : List Char) :
    dashedChars ('-' :: '-' :: rest) = '-' :: '-' :: rest := rfl

end AtomicStyle.Property
