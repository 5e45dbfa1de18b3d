import AtomicStyle.Number.Scientific
import AtomicStyle.Value

/-!
# Documents as JSON text

Style documents are written in YAML.  YAML itself is left out here: the command reads a document as
JSON, and so of the YAML texts only those that are JSON as well.  Nothing that is proved depends on
how a document is read.

A number without a point and without an exponent is an integer of any size and every other number a
double; a repeated key keeps its place and takes the later value.

The reader is a recursive descent on the characters.  Every call reads at least one of them or
hands on to a part of the same value, so that the length of the text, doubled, bounds the depth of
the descent, and `fuel` never runs out on a text that has an end.

* `readDocument?` - the value that a text denotes, or a word about why it denotes none.
-/

namespace AtomicStyle.Reader

/-- The result of reading, or a word about what is wrong. -/
abbrev Read := Except String

/-- Whether the character may stand between the parts of a value. -/
def isSpace (c : Char) : Bool :=
  c == ' ' || c == '\n' || c == '\r' || c == '\t'

/-- The text behind the spaces at its front. -/
def skipSpace (text : List Char) : List Char :=
  text.dropWhile isSpace

/-- The value of a hexadecimal digit in either case. -/
def hexValue? (c : Char) : Option Nat :=
  (Numeral.digitOf? c.toLower).filter (· < 16)

/-- The 16-bit unit of four hexadecimal digits, and what follows them. -/
def readUnit? : List Char → Option (Nat × List Char)
  | a :: b :: c :: d :: rest => do
    let a ← hexValue? a
    let b ← hexValue? b
    let c ← hexValue? c
    let d ← hexValue? d
    pure (((a * 16 + b) * 16 + c) * 16 + d, rest)
  | _ => none

/-- The character of an escape by a unit or a pair of surrogates, and what follows it. -/
def readEscapedPoint? (text : List Char) : Option (Char × List Char) := do
  let (high, rest) ← readUnit? text
  if 0xD800 ≤ high ∧ high < 0xDC00 then
    match rest with
    | '\\' :: 'u' :: rest => do
      let (low, rest) ← readUnit? rest
      if 0xDC00 ≤ low ∧ low < 0xE000 then
        pure (Char.ofNat (0x10000 + (high - 0xD800) * 0x400 + (low - 0xDC00)), rest)
      else none
    | _ => none
  else if 0xDC00 ≤ high ∧ high < 0xE000 then none
  else pure (Char.ofNat high, rest)

/-- The character of an escape by a letter. -/
def escapedLetter? (c : Char) : Option Char :=
  if c = 'n' then some '\n'
  else if c = 't' then some '\t'
  else if c = 'r' then some '\r'
  else if c = 'b' then some '\x08'
  else if c = 'f' then some '\x0c'
  else if c = '"' || c = '\\' || c = '/' then some c
  else none

/-- The characters of a text up to its closing quote, and what follows the quote. -/
def readText (fuel : Nat) (text : List Char) : Read (List Char × List Char) :=
  match fuel, text with
  | 0, _ => .error "text without an end"
  | _ + 1, [] => .error "text without an end"
  | fuel + 1, c :: rest =>
    if c = '"' then .ok ([], rest)
    else if c = '\\' then
      match rest with
      | 'u' :: rest =>
        match readEscapedPoint? rest with
        | some (d, rest) => do
          let (ds, rest) ← readText fuel rest
          pure (d :: ds, rest)
        | none => .error "escape that denotes no character"
      | e :: rest =>
        match escapedLetter? e with
        | some d => do
          let (ds, rest) ← readText fuel rest
          pure (d :: ds, rest)
        | none => .error "unknown escape"
      | [] => .error "text without an end"
    else do
      let (ds, rest) ← readText fuel rest
      pure (c :: ds, rest)

/-- Whether the character may stand in a number or a word. -/
def isBareChar (c : Char) : Bool :=
  c.isAlphanum || c == '-' || c == '+' || c == '.'

/-- The integer that the characters denote, if they are digits with an optional minus sign. -/
def integer? (text : List Char) : Option Int :=
  match text with
  | '-' :: digits =>
    if !digits.isEmpty && digits.all Char.isDigit then
      some (-(Binary64.digitsValue digits : Int))
    else none
  | digits =>
    if !digits.isEmpty && digits.all Char.isDigit then
      some (Binary64.digitsValue digits : Int)
    else none

/-- The value of a number or a word. -/
def bareValue? (text : List Char) : Option Value :=
  if text = "null".toList then some .null
  else if text = "true".toList then some (.bool true)
  else if text = "false".toList then some (.bool false)
  else
    match integer? text with
    | some n => some (.int n)
    | none =>
      if text.any Char.isDigit then (Binary64.ofText? text).map .float else none

/-- The entries with one more, in the place of the one with the same key or at the end. -/
def putEntry (key : Key) (value : Value) : List (Key × Value) → List (Key × Value)
  | [] => [(key, value)]
  | (k, v) :: rest => if k = key then (k, value) :: rest else (k, v) :: putEntry key value rest

mutual

/-- The value at the front of a text, and what follows it. -/
def readValue (fuel : Nat) (text : List Char) : Read (Value × List Char) :=
  match fuel with
  | 0 => .error "value without an end"
  | fuel + 1 =>
    match skipSpace text with
    | [] => .error "no value"
    | '"' :: rest => do
      let (s, rest) ← readText fuel rest
      pure (.text (String.ofList s), rest)
    | '[' :: rest =>
      match skipSpace rest with
      | ']' :: rest => .ok (.list [], rest)
      | rest => do
        let (items, rest) ← readItems fuel rest
        pure (.list items, rest)
    | '\x7b' :: rest =>
      match skipSpace rest with
      | '\x7d' :: rest => .ok (.map [], rest)
      | rest => do
        let (entries, rest) ← readEntries fuel [] rest
        pure (.map entries, rest)
    | rest =>
      match bareValue? (rest.takeWhile isBareChar) with
      | some v => .ok (v, rest.dropWhile isBareChar)
      | none => .error "unknown word"

/-- The items of a list up to its closing bracket, and what follows the bracket. -/
def readItems (fuel : Nat) (text : List Char) : Read (List Value × List Char) :=
  match fuel with
  | 0 => .error "list without an end"
  | fuel + 1 => do
    let (item, rest) ← readValue fuel text
    match skipSpace rest with
    | ',' :: rest => do
      let (items, rest) ← readItems fuel rest
      pure (item :: items, rest)
    | ']' :: rest => pure ([item], rest)
    | _ => .error "list without an end"

/-- The entries of a mapping up to its closing brace, put to those read before, and what follows the
brace. -/
def readEntries (fuel : Nat) (before : List (Key × Value)) (text : List Char) :
    Read (List (Key × Value) × List Char) :=
  match fuel with
  | 0 => .error "mapping without an end"
  | fuel + 1 =>
    match skipSpace text with
    | '"' :: rest => do
      let (key, rest) ← readText fuel rest
      match skipSpace rest with
      | ':' :: rest => do
        let (value, rest) ← readValue fuel rest
        let entries := putEntry (.text (String.ofList key)) value before
        match skipSpace rest with
        | ',' :: rest => readEntries fuel entries rest
        | '\x7d' :: rest => pure (entries, rest)
        | _ => .error "mapping without an end"
      | _ => .error "key without a value"
    | _ => .error "mapping without a key"

end

/-- The value that a text denotes, or a word about why it denotes none.  A blank text denotes the
absent value. -/
def readDocument? (text : String) : Read Value :=
  let chars := text.toList
  if (skipSpace chars).isEmpty then .ok .null
  else do
    let (value, rest) ← readValue (2 * chars.length + 2) chars
    if (skipSpace rest).isEmpty then pure value else .error "text behind the value"

end AtomicStyle.Reader
