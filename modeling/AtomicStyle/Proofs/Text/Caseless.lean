import AtomicStyle.Proofs.Text.Ascii
import AtomicStyle.Text.Blank
import AtomicStyle.Text.Caseless
import Mathlib.Data.List.Forall2
import Mathlib.Tactic.SplitIfs

/-!
# Case families

Words are compared by folding their characters.  What may stand for a word?

**Families.**  A letter may be written small or large, and three letters have members outside ASCII
in their families: the `i` with and without its dot, the long `s` and the Kelvin sign
(`foldChar_eq_iff`).  So a text folds to a word when it is written with a member of the family of
each letter (`map_foldChar_eq_iff`).  No member of a family is a blank (`foldChar_of_isBlank`).

**What is left.**  A word is read off the front of a text, and where it ends the text, a line break
may be left (`any_isEnd_dropWord?_iff`).
-/

namespace AtomicStyle.Text

/-! ## Families -/

/-- The characters outside ASCII that stand for a small letter. -/
def foreignCases (letter : Char) : List Char :=
  if letter = 'i' then ['İ', 'ı']
  else if letter = 's' then ['ſ']
  else if letter = 'k' then ['\u212A']
  else []

/-- The characters as which a small letter may be written. -/
def caseFamily (letter : Char) : List Char :=
  letter :: letter.toUpper :: foreignCases letter

lemma lt_of_isLower {letter : Char} (h : letter.isLower = true) : letter.toNat < 0x80 := by
  have hle : letter.val ≤ 'z'.val := of_decide_eq_true (Bool.and_eq_true_iff.mp h).2
  exact Nat.lt_of_le_of_lt (UInt32.le_iff_toNat_le.mp hle) (by decide)

lemma toLower_eq_iff {c letter : Char} (hc : c.toNat < 0x80) (hletter : letter.isLower = true) :
    c.toLower = letter ↔ c = letter ∨ c = letter.toUpper := by
  have hback : ∀ c : Char, c.toNat < 0x80 → c = c.toLower ∨ c = c.toLower.toUpper :=
    forall_ascii (by decide)
  have hsmall : ∀ d : Char, d.toNat < 0x80 → d.isLower = true →
      d.toLower = d ∧ d.toUpper.toLower = d := forall_ascii (by decide)
  obtain ⟨hself, hupper⟩ := hsmall letter (lt_of_isLower hletter) hletter
  constructor
  · rintro rfl
    exact hback c hc
  · rintro (rfl | rfl)
    · exact hself
    · exact hupper

/-- A capital of ASCII is a character of ASCII. -/
lemma toUpper_lt {letter : Char} (h : letter.isLower = true) : letter.toUpper.toNat < 0x80 := by
  have hupper : ∀ d : Char, d.toNat < 0x80 → d.toUpper.toNat < 0x80 := forall_ascii (by decide)
  exact hupper letter (lt_of_isLower h)

/-- The characters outside ASCII that fold to a small letter. -/
lemma mem_foreignCases_iff {c letter : Char} (hletter : letter.isLower = true) :
    c ∈ foreignCases letter ↔ ¬c.toNat < 0x80 ∧ foldChar c = letter := by
  constructor
  · suffices hall : ∀ d ∈ foreignCases letter, ¬d.toNat < 0x80 ∧ foldChar d = letter from hall c
    unfold foreignCases
    split_ifs with hi hs hk
    · subst hi
      exact List.forall_iff_forall_mem.mp (by decide)
    · subst hs
      exact List.forall_iff_forall_mem.mp (by decide)
    · subst hk
      exact List.forall_iff_forall_mem.mp (by decide)
    · simp
  · rintro ⟨hc, hfold⟩
    have hsmall : foldChar c = c → c.toNat < 0x80 := fun h => lt_of_isLower (h ▸ hfold ▸ hletter)
    rw [foldChar, if_neg hc] at hfold hsmall
    split_ifs at hfold hsmall with hi hs hk
    · subst hfold
      simpa [foreignCases] using hi
    · subst hfold hs
      decide
    · subst hfold hk
      decide
    · exact absurd (hsmall rfl) hc

/-- **The characters that fold to a small letter are those of its family.** -/
theorem foldChar_eq_iff {c letter : Char} (hletter : letter.isLower = true) :
    foldChar c = letter ↔ c ∈ caseFamily letter := by
  rw [caseFamily, List.mem_cons, List.mem_cons, ← or_assoc, mem_foreignCases_iff hletter]
  by_cases hc : c.toNat < 0x80
  · rw [foldChar, if_pos hc, toLower_eq_iff hc hletter]
    exact (or_iff_left fun h => h.1 hc).symm
  · have hne : ¬(c = letter ∨ c = letter.toUpper) := by
      rintro (rfl | rfl)
      · exact hc (lt_of_isLower hletter)
      · exact hc (toUpper_lt hletter)
    rw [or_iff_right hne, and_iff_right hc]

/-- A text folds to a word of small letters when each character is of the family of its letter. -/
lemma map_foldChar_eq_iff {text word : List Char} (hword : ∀ letter ∈ word, letter.isLower = true) :
    text.map foldChar = word ↔ List.Forall₂ (fun c letter => c ∈ caseFamily letter) text word := by
  induction word generalizing text with
  | nil => rw [List.map_eq_nil_iff, List.forall₂_nil_right_iff]
  | cons letter word ih =>
      obtain ⟨hletter, hword⟩ := List.forall_mem_cons.mp hword
      cases text with
      | nil => exact iff_of_false (List.cons_ne_nil _ _).symm nofun
      | cons c cs =>
          rw [List.map_cons, List.cons.injEq, List.forall₂_cons, foldChar_eq_iff hletter, ih hword]

lemma foldChar_of_isBlank {c : Char} (h : isBlank c = true) : foldChar c = c := by
  have hascii : ∀ c : Char, c.toNat < 0x80 → isBlank c = true → c.toLower = c :=
    forall_ascii (by decide)
  have hne : ∀ d ∈ ['İ', 'ı', 'ſ', '\u212A'], isBlank d = false :=
    List.forall_iff_forall_mem.mp (by decide)
  have hnot : ∀ d ∈ ['İ', 'ı', 'ſ', '\u212A'], c ≠ d := by
    rintro d hd rfl
    rw [hne c hd] at h
    cases h
  simp only [List.forall_mem_cons, List.not_mem_nil, false_imp_iff, forall_const, and_true] at hnot
  obtain ⟨h₁, h₂, h₃, h₄⟩ := hnot
  rw [foldChar]
  split_ifs with hsmall hi
  · exact hascii c hsmall h
  · rcases Bool.or_eq_true_iff.mp hi with hi | hi
    · exact absurd (of_decide_eq_true hi) h₁
    · exact absurd (of_decide_eq_true hi) h₂
  · rfl

/-! ## What is left -/

/-- A part that was read off a text is given by what is left of the text. -/
lemma take_length_sub (read left : List Char) :
    (read ++ left).take ((read ++ left).length - left.length) = read := by
  rw [List.length_append, Nat.add_sub_cancel, List.take_left]

lemma isEnd_iff {text : List Char} : isEnd text = true ↔ text = [] ∨ text = ['\n'] := by
  rw [isEnd, Bool.or_eq_true, beq_iff_eq, beq_iff_eq]

lemma isBlank_of_ending {ending : List Char} (h : ending = [] ∨ ending = ['\n']) :
    ∀ c ∈ ending, isBlank c = true := by
  rcases h with rfl | rfl
  · exact List.forall_mem_nil _
  · exact List.forall_mem_singleton.mpr rfl

/-- A text is the word in some case, perhaps with a line break behind. -/
lemma any_isEnd_dropWord?_iff {word text : List Char} :
    (dropWord? word text).any isEnd = true ↔
      ∃ spelled ending, text = spelled ++ ending ∧ spelled.map foldChar = word ∧
        (ending = [] ∨ ending = ['\n']) := by
  rw [Option.any_eq_true]
  constructor
  · rintro ⟨ending, hdrop, hending⟩
    obtain ⟨spelled, htext, hfold⟩ := dropWord?_eq_some_iff.mp hdrop
    exact ⟨spelled, ending, htext, hfold, isEnd_iff.mp hending⟩
  · rintro ⟨spelled, ending, htext, hfold, hending⟩
    exact ⟨ending, dropWord?_eq_some_iff.mpr ⟨spelled, htext, hfold⟩, isEnd_iff.mpr hending⟩

end AtomicStyle.Text
