/-!
# Cutting a text at a character

`splitOn` cuts at every occurrence of one character and keeps the empty pieces, so that joining
the pieces again restores the text.
-/

namespace AtomicStyle.Text

/-- Puts a character in front of the first of some pieces. -/
def consFirst (c : Char) : List (List Char) → List (List Char)
  | [] => [[c]]
  | piece :: rest => (c :: piece) :: rest

/-- The pieces of a text between the occurrences of a character. -/
def splitOn (separator : Char) : List Char → List (List Char)
  | [] => [[]]
  | c :: cs =>
    if c = separator then [] :: splitOn separator cs else consFirst c (splitOn separator cs)

/-- Joins texts with one character between them. -/
def joinWith (separator : Char) (texts : List (List Char)) : List Char :=
  [separator].intercalate texts

/-- Behind the first text each further one follows a separator. -/
theorem joinWith_cons (separator : Char) (text : List Char) (texts : List (List Char)) :
    joinWith separator (text :: texts) = text ++ texts.flatMap (separator :: ·) := by
  induction texts generalizing text with
  | nil => simp [joinWith, List.intercalate]
  | cons next rest ih =>
    have hnext := ih next
    simp only [joinWith, List.intercalate] at hnext ⊢
    rw [List.intersperse_cons_cons, List.flatten_cons, List.flatten_cons, hnext]
    simp

end AtomicStyle.Text
