/-!
# Blanks

Style values are compared and hashed by their canonical spelling, in which blanks carry no
information beyond "here two words are apart".  A *blank* is a character of the white-space class
together with the four information separators; `trim` removes blanks at both ends, `collapse`
writes each run of blanks as one space, and `tidy` does both.

* `trimStart`, `trimEnd`, `trim` - blanks at the ends go;
* `collapse` - each run of blanks becomes one space;
* `tidy` - the canonical spelling of a text.
-/

namespace AtomicStyle.Text

/-- The blank characters: tab to carriage return, the four information separators, the space, the
next-line control, the no-break space and the spaces and separators of the general punctuation
and ideographic blocks.  The zero-width space is not among them. -/
def isBlank (c : Char) : Bool :=
  let n := c.toNat
  (9 ≤ n && n ≤ 13) || (28 ≤ n && n ≤ 32) || n == 0x85 || n == 0xA0 || n == 0x1680 ||
    (0x2000 ≤ n && n ≤ 0x200A) || n == 0x2028 || n == 0x2029 || n == 0x202F || n == 0x205F ||
    n == 0x3000

/-- Removes the blanks in front. -/
def trimStart (text : List Char) : List Char :=
  text.dropWhile isBlank

/-- Removes the blanks behind. -/
def trimEnd : List Char → List Char
  | [] => []
  | c :: cs =>
    match trimEnd cs with
    | [] => if isBlank c then [] else [c]
    | d :: ds => c :: d :: ds

/-- Removes the blanks at both ends. -/
def trim (text : List Char) : List Char :=
  trimEnd (trimStart text)

/-- `collapse` from inside a run of blanks (`inRun`), whose space has already been written, or
from outside one. -/
def collapseFrom (inRun : Bool) : List Char → List Char
  | [] => []
  | c :: cs =>
    if isBlank c then
      if inRun then collapseFrom true cs else ' ' :: collapseFrom true cs
    else c :: collapseFrom false cs

/-- Writes each run of blanks as one space. -/
def collapse (text : List Char) : List Char :=
  collapseFrom false text

/-- The canonical spelling of a text: no blank at either end, one space for each run of blanks
inside. -/
def tidy (text : List Char) : List Char :=
  collapse (trim text)

/-! ## First facts -/

@[simp] theorem collapseFrom_nil (inRun : Bool) : collapseFrom inRun [] = [] := rfl

/-- A text that ends in a non-blank keeps its end. -/
theorem trimEnd_append_of_not_isBlank (text : List Char) {c : Char} (h : isBlank c = false) :
    trimEnd (text ++ [c]) = text ++ [c] := by
  induction text with
  | nil => simp [trimEnd, h]
  | cons d ds ih =>
    rw [List.cons_append, trimEnd, ih]
    cases ds <;> rfl

/-- A blank at the end goes without touching what stands before it. -/
theorem trimEnd_append_of_isBlank (text : List Char) {c : Char} (h : isBlank c = true) :
    trimEnd (text ++ [c]) = trimEnd text := by
  induction text with
  | nil => simp [trimEnd, h]
  | cons d ds ih => rw [List.cons_append, trimEnd, ih, trimEnd]

end AtomicStyle.Text
