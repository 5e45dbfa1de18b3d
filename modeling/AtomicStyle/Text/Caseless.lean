/-!
# Matching without case

Units, keywords and side words are recognised in any case.  Four characters outside ASCII belong to
the case family of an ASCII letter: the dotted capital I and the dotless small i, the long s and
the Kelvin sign.  `foldChar` sends each family to its small ASCII letter, and a text matches a
lower-case word when its folded characters are the word.

* `dropWord? word text` - what follows the word at the front of the text.
-/

namespace AtomicStyle.Text

/-- The small ASCII letter of a character's case family; a character of no such family is left as
it is. -/
def foldChar (c : Char) : Char :=
  if c.toNat < 0x80 then c.toLower
  else if c = 'İ' || c = 'ı' then 'i'
  else if c = 'ſ' then 's'
  else if c = '\u212A' then 'k'
  else c

/-- Whether the character belongs to the case family of an ASCII letter. -/
def isFoldedLetter (c : Char) : Bool :=
  let d := foldChar c
  'a' ≤ d && d ≤ 'z'

/-- What follows `word`, written in any case, at the front of the text. -/
def dropWord? : List Char → List Char → Option (List Char)
  | [], text => some text
  | _ :: _, [] => none
  | w :: word, c :: text => if foldChar c = w then dropWord? word text else none

/-- The text with one final line break removed, if it ends in one. -/
def dropFinalBreak : List Char → List Char
  | [] => []
  | [c] => if c = '\n' then [] else [c]
  | c :: d :: cs => c :: dropFinalBreak (d :: cs)

/-- The texts among which the end of a pattern is found: the end itself, or the end behind one
final line break. -/
def isEnd (text : List Char) : Bool :=
  text == [] || text == ['\n']

@[simp] theorem dropWord?_nil (text : List Char) : dropWord? [] text = some text := by
  cases text <;> rfl

/-- A word is dropped exactly when the front of the text is the word in some case. -/
theorem dropWord?_eq_some_iff {word text rest : List Char} :
    dropWord? word text = some rest ↔ ∃ w, text = w ++ rest ∧ w.map foldChar = word := by
  induction word generalizing text with
  | nil =>
    simp only [dropWord?_nil, Option.some.injEq, List.map_eq_nil_iff]
    constructor
    · rintro rfl; exact ⟨[], rfl, rfl⟩
    · rintro ⟨w, h, rfl⟩; exact h
  | cons d word ih =>
    cases text with
    | nil =>
      constructor
      · intro h; simp [dropWord?] at h
      · rintro ⟨w, h, hw⟩
        rw [(List.append_eq_nil_iff.mp h.symm).1] at hw
        simp at hw
    | cons c text =>
      by_cases hc : foldChar c = d
      · simp only [dropWord?, hc, if_true, ih]
        constructor
        · rintro ⟨w, rfl, rfl⟩; exact ⟨c :: w, rfl, by simp [hc]⟩
        · rintro ⟨w, h, hw⟩
          cases w with
          | nil => simp at hw
          | cons e w =>
            simp only [List.cons_append, List.cons.injEq] at h
            simp only [List.map_cons, List.cons.injEq] at hw
            exact ⟨w, h.2, hw.2⟩
      · simp only [dropWord?, hc, if_false]
        constructor
        · intro h; simp at h
        · rintro ⟨w, h, hw⟩
          cases w with
          | nil => simp at hw
          | cons e w =>
            simp only [List.cons_append, List.cons.injEq] at h
            simp only [List.map_cons, List.cons.injEq] at hw
            exact absurd (h.1 ▸ hw.1) hc

end AtomicStyle.Text
