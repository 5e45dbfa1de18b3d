import Mathlib.Tactic.Lemma

/-!
# ASCII characters

There are few ASCII characters, so what is asked of each of them can be decided code by code
(`forall_ascii`).
-/

namespace AtomicStyle

/-- A text of ASCII characters. -/
def IsAscii (text : List Char) : Prop :=
  ∀ c ∈ text, c.toNat < 0x80

instance (text : List Char) : Decidable (IsAscii text) :=
  decidable_of_iff (text.all (·.toNat < 0x80) = true) (by simp [IsAscii])

/-- What holds for every ASCII code holds of every ASCII character. -/
lemma forall_ascii {p : Char → Prop} (h : ∀ n < 0x80, p (Char.ofNat n)) :
    ∀ c : Char, c.toNat < 0x80 → p c := by
  intro c hc
  have hchar := h c.toNat hc
  rwa [Char.ofNat_toNat] at hchar

/-- Only capitals have another small letter. -/
lemma toLower_of_not_isUpper {c : Char} (h : c.isUpper = false) : c.toLower = c := by
  have hrange : ¬(c.val ≥ 'A'.val ∧ c.val ≤ 'Z'.val) := of_decide_eq_false h
  exact dif_neg hrange

end AtomicStyle
