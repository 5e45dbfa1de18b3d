import AtomicStyle.Number.Layout
import AtomicStyle.Text.Quoted
import AtomicStyle.Value

/-!
# Values in messages

A message that rejects a value shows the value itself.  Scalars are spelled in full, so that `1`
and `1.0` or the text `'1'` can be told apart although they mean the same in a style sheet; lists
stand in brackets and mappings in braces, with their entries in order.

* `Value.display`, `Key.display` - a value or key as a message shows it;
* `Key.text` - a key as plain text, without quotes;
* `ValueKind.name` - the word for a shape.
-/

namespace AtomicStyle

/-- The word by which messages call a shape. -/
def ValueKind.name : ValueKind → String
  | .null => "NoneType"
  | .bool => "bool"
  | .int => "int"
  | .float => "float"
  | .text => "str"
  | .list => "list"
  | .map => "dict"

/-- A key as messages show it: a text between quotes, a number in decimal. -/
def Key.display : Key → List Char
  | .text s => Text.quoted s.toList
  | .number n => Numeral.signed n

/-- A key as plain text. -/
def Key.plain : Key → String
  | .text s => s
  | .number n => String.ofList (Numeral.signed n)

/-- Puts a comma and a space between consecutive items. -/
def commaSeparated : List (List Char) → List Char
  | [] => []
  | [item] => item
  | item :: next :: items => item ++ ',' :: ' ' :: commaSeparated (next :: items)

mutual

/-- The characters of a value as messages show it. -/
def Value.displayChars : Value → List Char
  | .null => "None".toList
  | .bool b => (if b then "True" else "False").toList
  | .int n => Numeral.signed n
  | .float x => Layout.float x
  | .text s => Text.quoted s.toList
  | .list items => '[' :: commaSeparated (displayItems items) ++ [']']
  | .map entries => '{' :: commaSeparated (displayEntries entries) ++ ['}']

/-- The items of a list as messages show them. -/
def displayItems : List Value → List (List Char)
  | [] => []
  | v :: vs => v.displayChars :: displayItems vs

/-- The entries of a mapping as messages show them. -/
def displayEntries : List (Key × Value) → List (List Char)
  | [] => []
  | (k, v) :: rest => (k.display ++ ':' :: ' ' :: v.displayChars) :: displayEntries rest

end

/-- A value as messages show it. -/
def Value.display (v : Value) : String :=
  String.ofList v.displayChars

/-- A value used as plain text: a text stands for itself, any other value is spelled as messages
show it. -/
def Value.plain : Value → String
  | .text s => s
  | v => v.display

end AtomicStyle
