import AtomicStyle.Text.Blank
import AtomicStyle.Text.Split

/-!
# The components of a value

A value such as `1px calc(2px + 3px)` consists of components that are separated outside
parentheses and quotes.  One pass with a small state, the *nesting* at the point reached, cuts the
text into pieces; a component is a piece that is not blank, with the blanks around it removed.

* `Nesting` - the parentheses and the quote that are open at a point of the text;
* `pieces` - the text cut at its top-level separators, nothing else changed;
* `components` - the trimmed pieces that hold anything.
-/

namespace AtomicStyle.Css

/-- What is open at a point of a text: a number of parentheses, and perhaps a quote. -/
structure Nesting where
  depth : Nat := 0
  quote : Option Char := none
deriving DecidableEq, Repr

namespace Nesting

/-- The nesting behind one more character.  Inside a quote only the same quote matters; outside, a
closing parenthesis without an opening one is passed over. -/
def next (n : Nesting) (c : Char) : Nesting :=
  match n.quote with
  | some q => if c = q then { n with quote := none } else n
  | none =>
    if c = '"' || c = '\'' then { n with quote := some c }
    else if c = '(' then { n with depth := n.depth + 1 }
    else if c = ')' then { n with depth := n.depth - 1 }
    else n

/-- Whether the character, met at this nesting, separates two pieces.  Quotes and parentheses never
do. -/
def separates (n : Nesting) (separators : List Char) (c : Char) : Bool :=
  n.quote.isNone && n.depth == 0 && separators.contains c &&
    !(c == '"' || c == '\'' || c == '(' || c == ')')

end Nesting

/-- The pieces of a text between its top-level separators, when `n` is open in front of it. -/
def pieces (separators : List Char) (n : Nesting) : List Char → List (List Char)
  | [] => [[]]
  | c :: cs =>
    if n.separates separators c then [] :: pieces separators n cs
    else Text.consFirst c (pieces separators (n.next c) cs)

/-- The components of a text: its pieces without the blanks around them, as far as anything is
left. -/
def components (separators : List Char) (text : List Char) : List (List Char) :=
  ((pieces separators {} text).map Text.trim).filter (· ≠ [])

/-! ## First facts -/

/-- There is always a first piece. -/
theorem pieces_ne_nil (separators : List Char) (n : Nesting) (text : List Char) :
    pieces separators n text ≠ [] := by
  cases text with
  | nil => simp [pieces]
  | cons c cs =>
    rw [pieces]
    split
    · simp
    · cases pieces separators (n.next c) cs <;> simp [Text.consFirst]

/-- No component is empty. -/
theorem ne_nil_of_mem_components {separators text component : List Char}
    (h : component ∈ components separators text) : component ≠ [] := by
  simp only [components, List.mem_filter, decide_eq_true_eq] at h
  exact h.2

end AtomicStyle.Css
