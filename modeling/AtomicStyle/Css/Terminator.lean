/-!
# Where a value would end its declaration

A value is safe to write between `property:` and `;` when no character of it ends the declaration
and nothing stays open at its end: a semicolon or a brace outside quotes and parentheses closes the
declaration early, and an unclosed quote or parenthesis carries the rest of the sheet into the
value.  The scan runs over the text once.  Its state holds what is open and where it was opened, so
that the offending position can be reported.

* `Scan` - the state of the scan;
* `Scan.step` - one character, which either is a terminator or leads to the next state;
* `terminator?` - the first position at which the declaration would be broken.
-/

namespace AtomicStyle.Css

/-- What is open at a point of a text: the positions of the open parentheses, the innermost first,
the open quote with its position, and whether the next character stands behind a backslash. -/
structure Scan where
  openings : List Nat := []
  quote : Option (Char × Nat) := none
  escaped : Bool := false
deriving DecidableEq, Repr

namespace Scan

/-- The state behind the character `c` at position `i`, or nothing when `c` ends the
declaration. -/
def step (s : Scan) (i : Nat) (c : Char) : Option Scan :=
  if s.escaped then some { s with escaped := false }
  else if c = '\\' then some { s with escaped := true }
  else
    match s.quote with
    | some (q, _) => some (if c = q then { s with quote := none } else s)
    | none =>
      if c = '"' || c = '\'' then some { s with quote := some (c, i) }
      else if c = '(' then some { s with openings := i :: s.openings }
      else if c = ')' then some { s with openings := s.openings.drop 1 }
      else if s.openings.isEmpty && (c = ';' || c = '\x7b' || c = '\x7d') then none
      else some s

/-- The position of what is still open: the quote, or else the outermost parenthesis. -/
def unclosed? (s : Scan) : Option Nat :=
  match s.quote with
  | some (_, i) => some i
  | none => s.openings.getLast?

/-- The scan of a text that begins at position `i`. -/
def run (s : Scan) (i : Nat) : List Char → Option Nat
  | [] => s.unclosed?
  | c :: cs =>
    match s.step i c with
    | none => some i
    | some s => s.run (i + 1) cs

end Scan

/-- The position of the first character that would end the declaration, or of the quote or
outermost parenthesis left open, if there is one. -/
def terminator? (text : List Char) : Option Nat :=
  Scan.run {} 0 text

@[simp] theorem terminator?_nil : terminator? [] = none := rfl

end AtomicStyle.Css
