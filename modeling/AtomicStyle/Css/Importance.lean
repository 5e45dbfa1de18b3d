import AtomicStyle.Text.Blank
import AtomicStyle.Text.Caseless

/-!
# The importance mark

A value may end in `!important`, in any case and with blanks before and behind the exclamation
mark.  The mark is cut off before the value is taken apart and put back, in its canonical spelling,
behind every part.

* `isMark` - the texts that are an importance mark;
* `splitImportance` - a value as its body and whether a mark followed;
* `attachImportance` - the inverse, with the canonical mark.
-/

namespace AtomicStyle.Css

open Text

/-- The word of the mark. -/
def importantWord : List Char :=
  ['i', 'm', 'p', 'o', 'r', 't', 'a', 'n', 't']

/-- The canonical mark. -/
def importantMark : List Char :=
  '!' :: importantWord

/-- Whether the text is the word of the mark in any case, perhaps with one line break behind. -/
def isImportantWord (text : List Char) : Bool :=
  match dropWord? importantWord text with
  | some rest => isEnd rest
  | none => false

/-- Whether the text is an importance mark: blanks, the exclamation mark, blanks and the word. -/
def isMark (text : List Char) : Bool :=
  match trimStart text with
  | '!' :: rest => isImportantWord (trimStart rest)
  | _ => false

/-- The text in front of the longest importance mark that ends it. -/
def beforeMark? : List Char → Option (List Char)
  | [] => none
  | c :: cs => if isMark (c :: cs) then some [] else (beforeMark? cs).map (c :: ·)

/-- A value as its body and whether an importance mark followed it. -/
def splitImportance (text : List Char) : List Char × Bool :=
  match beforeMark? text with
  | some body => (body, true)
  | none => (text, false)

/-- The body with the canonical mark behind it when the value is important. -/
def attachImportance (body : List Char) (important : Bool) : List Char :=
  if important then body ++ ' ' :: importantMark else body

@[simp] theorem attachImportance_false (body : List Char) :
    attachImportance body false = body := rfl

end AtomicStyle.Css
