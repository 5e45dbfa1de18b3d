import AtomicStyle.Document

/-!
# The manifest

The manifest of a bundle is a JSON text in ASCII: the identifier of each animation, and the classes
of each property of each namespace.  Members stand on lines of their own, indented by two spaces for
each level; characters outside ASCII are written as escapes, those beyond the first plane as a pair
of surrogates.

* `Entry` - a text, nothing, or named members;
* `Entry.render` - its JSON text;
* `Bundle.manifest` - the manifest of a bundle.
-/

namespace AtomicStyle.Build

/-- A part of a manifest. -/
inductive Entry where
  | absent
  | text (s : String)
  | members (ms : List (String × Entry))
deriving Repr

/-- The escape of a 16-bit unit. -/
def escapeUnit (n : Nat) : List Char :=
  '\\' :: 'u' :: Numeral.hexadecimal 4 n

/-- How a character is written inside a JSON text in ASCII. -/
def escapeJsonChar (c : Char) : List Char :=
  if c = '"' then ['\\', '"']
  else if c = '\\' then ['\\', '\\']
  else if c = '\n' then ['\\', 'n']
  else if c = '\r' then ['\\', 'r']
  else if c = '\t' then ['\\', 't']
  else if c = '\x08' then ['\\', 'b']
  else if c = '\x0c' then ['\\', 'f']
  else
    let n := c.toNat
    if 0x20 ≤ n && n < 0x7f then [c]
    else if n < 0x10000 then escapeUnit n
    else
      escapeUnit (0xD800 + (n - 0x10000) / 0x400) ++ escapeUnit (0xDC00 + (n - 0x10000) % 0x400)

/-- A text between quotes. -/
def jsonText (s : String) : List Char :=
  '"' :: s.toList.flatMap escapeJsonChar ++ ['"']

/-- A line break and the indentation of a level. -/
def newLine (level : Nat) : List Char :=
  '\n' :: List.replicate (2 * level) ' '

mutual

/-- The JSON text of a part at a level of indentation. -/
def Entry.renderAt (level : Nat) : Entry → List Char
  | .absent => ['n', 'u', 'l', 'l']
  | .text s => jsonText s
  | .members [] => ['\x7b', '\x7d']
  | .members (m :: ms) =>
    '\x7b' :: renderMembers (level + 1) (m :: ms) ++ newLine level ++ ['\x7d']

/-- The members of a part, each on a line of its own. -/
def renderMembers (level : Nat) : List (String × Entry) → List Char
  | [] => []
  | (name, e) :: rest =>
    newLine level ++ jsonText name ++ ':' :: ' ' :: e.renderAt level ++
      (if rest.isEmpty then [] else [',']) ++ renderMembers level rest

end

/-- The JSON text of a part. -/
def Entry.render (e : Entry) : String :=
  String.ofList (e.renderAt 0)

/-- The classes of a property. -/
def classesEntry : Option String → Entry
  | some classes => .text classes
  | none => .absent

/-- The manifest of a bundle. -/
def manifest (b : Bundle) : Entry :=
  .members
    [("keyframes", .members (b.keyframes.map fun (name, id) => (name.plain, .text id))),
     ("styles", .members (b.styles.map fun (name, classes) =>
       (name.plain, .members (classes.map fun (property, c) =>
         (property.plain, classesEntry c)))))]

end AtomicStyle.Build
