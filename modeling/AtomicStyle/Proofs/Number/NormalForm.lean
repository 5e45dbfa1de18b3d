import AtomicStyle.Proofs.Number.Numeral
import Mathlib.Data.Nat.Digits.Lemmas

/-!
# Numerals in normal form

A number is written without needless zeros, so it has one numeral.  Which texts are numerals of
numbers?

**Digits.**  A character is a digit of base 36 when it is a decimal digit or a small letter
(`digit_iff`).

**Normal form.**  A numeral is normal when it has some digit, nothing but digits, and no zero in
front of another digit (`IsNormal`).  Numbers are written so (`isNormal_encode`), because the
leading digit is what is left when the number has been divided down to less than its base.
Conversely a normal numeral is read, and what is read is written in the same way
(`IsNormal.exists_encode_eq`).
-/

namespace AtomicStyle.Numeral

/-! ## Digits -/

/-- A digit is written as the character that it was read from. -/
lemma digitChar_of_digitOf? {c : Char} {d : Nat} (h : digitOf? c = some d) :
    d < 36 ∧ digitChar d = c := by
  rw [digitOf?] at h
  split_ifs at h with hnumeral hletter
  · have hlow : 0x30 ≤ c.toNat := UInt32.le_iff_toNat_le.mp hnumeral.1
    have hhigh : c.toNat ≤ 0x39 := UInt32.le_iff_toNat_le.mp hnumeral.2
    obtain rfl := Option.some.inj h
    refine ⟨by omega, ?_⟩
    rw [digitChar, if_pos (by omega), Nat.add_sub_cancel' hlow, Char.ofNat_toNat]
  · have hlow : 0x61 ≤ c.toNat := UInt32.le_iff_toNat_le.mp hletter.1
    have hhigh : c.toNat ≤ 0x7A := UInt32.le_iff_toNat_le.mp hletter.2
    obtain rfl := Option.some.inj h
    refine ⟨by omega, ?_⟩
    rw [digitChar, if_neg (by omega), Nat.add_sub_cancel, Nat.add_sub_cancel' hlow,
      Char.ofNat_toNat]

/-- **The digits of base 36 are the decimal digits and the small letters.** -/
theorem digit_iff {c : Char} :
    (∃ d < 36, digitChar d = c) ↔ ('0' ≤ c ∧ c ≤ '9') ∨ ('a' ≤ c ∧ c ≤ 'z') := by
  constructor
  · rintro ⟨d, hd, rfl⟩
    have hrange : ∀ d < 36, ('0' ≤ digitChar d ∧ digitChar d ≤ '9') ∨
        ('a' ≤ digitChar d ∧ digitChar d ≤ 'z') := by decide
    exact hrange d hd
  · intro h
    cases hdigit : digitOf? c with
    | some d => exact ⟨d, digitChar_of_digitOf? hdigit⟩
    | none =>
        rw [digitOf?] at hdigit
        split_ifs at hdigit with hnumeral hletter
        exact absurd h (not_or.mpr ⟨hnumeral, hletter⟩)

lemma digitChar_eq_zero_iff {d : Nat} (hd : d < 36) : digitChar d = '0' ↔ d = 0 := by
  have hall : ∀ d < 36, digitChar d = '0' ↔ d = 0 := by decide
  exact hall d hd

/-- A text of digits is written from a list of them, the least significant one first. -/
lemma exists_digits {base : Nat} {text : List Char} (h : ∀ c ∈ text, ∃ d < base, digitChar d = c) :
    ∃ digits : List Nat, (∀ d ∈ digits, d < base) ∧ (digits.map digitChar).reverse = text := by
  induction text with
  | nil => exact ⟨[], by simp, rfl⟩
  | cons c cs ih =>
      obtain ⟨⟨d, hd, rfl⟩, hcs⟩ := List.forall_mem_cons.mp h
      obtain ⟨digits, hdigits, rfl⟩ := ih hcs
      refine ⟨digits ++ [d], ?_, by simp⟩
      exact List.forall_mem_append.mpr ⟨hdigits, List.forall_mem_singleton.mpr hd⟩

/-! ## Normal form -/

/-- A numeral without needless zeros: some digit, nothing but digits, and no zero in front of
another digit. -/
structure IsNormal (base : Nat) (text : List Char) : Prop where
  ne_nil : text ≠ []
  digits : ∀ c ∈ text, ∃ d < base, digitChar d = c
  lead : text.head? = some '0' → text = ['0']

section

variable {base : Nat}

/-- A numeral has as many digits as the number can be divided. -/
lemma length_encode (hbase : 2 ≤ base) (n : Nat) :
    (encode base n).length = Nat.log base n + 1 := by
  by_cases hn : n = 0
  · rw [hn, encode_zero, Nat.log_zero_right]
    rfl
  · rw [encode_of_ne_zero hbase hn, List.length_reverse, List.length_map,
      Nat.length_digits base n hbase hn]

/-- **Only the numeral of zero begins with a zero.** -/
theorem head?_encode (hbase : 2 ≤ base) (hmax : base ≤ 36) (n : Nat) :
    (encode base n).head? = some '0' ↔ n = 0 := by
  by_cases hn : n = 0
  · rw [hn]
    exact iff_of_true rfl rfl
  · have hne : Nat.digits base n ≠ [] := Nat.digits_ne_nil_iff_ne_zero.mpr hn
    have hlast : (Nat.digits base n).getLast hne < base :=
      Nat.digits_lt_base hbase (List.getLast_mem hne)
    rw [encode_of_ne_zero hbase hn, List.head?_reverse, List.getLast?_map,
      List.getLast?_eq_some_getLast hne, Option.map_some, Option.some.injEq,
      digitChar_eq_zero_iff (by omega)]
    exact iff_of_false (Nat.getLast_digit_ne_zero base hn) hn

/-- **Numbers are written in normal form.** -/
theorem isNormal_encode (hbase : 2 ≤ base) (hmax : base ≤ 36) (n : Nat) :
    IsNormal base (encode base n) where
  ne_nil := encode_ne_nil hbase
  digits _ hc := exists_digit_of_mem_encode hbase hc
  lead h := by rw [(head?_encode hbase hmax n).mp h, encode_zero]

/-- A list of digits whose last, most significant one is not zero is that of its number. -/
lemma encode_ofDigits (hbase : 2 ≤ base) {digits : List Nat} (hne : digits ≠ [])
    (hdigits : ∀ d ∈ digits, d < base) (hlast : digits.getLast hne ≠ 0) :
    encode base (Nat.ofDigits base digits) = (digits.map digitChar).reverse := by
  have hself := Nat.digits_ofDigits base hbase digits hdigits fun _ => hlast
  have hpos : Nat.ofDigits base digits ≠ 0 := by
    rw [← Nat.digits_ne_nil_iff_ne_zero (b := base), hself]
    exact hne
  rw [encode_of_ne_zero hbase hpos, hself]

/-- **A normal numeral is read, and what is read is written in the same way.** -/
theorem IsNormal.exists_encode_eq (hbase : 2 ≤ base) (hmax : base ≤ 36) {text : List Char}
    (h : IsNormal base text) : ∃ n, decode? base text = some n ∧ encode base n = text := by
  obtain ⟨digits, hdigits, rfl⟩ := exists_digits h.digits
  have hne : digits ≠ [] := by simpa using h.ne_nil
  refine ⟨Nat.ofDigits base digits, decode?_reverse_map hmax hne hdigits, ?_⟩
  by_cases hlast : digits.getLast hne = 0
  · have hlead : (digits.map digitChar).reverse.head? = some '0' := by
      rw [List.head?_reverse, List.getLast?_map, List.getLast?_eq_some_getLast hne, hlast]
      rfl
    have hzero := h.lead hlead
    obtain ⟨d, rfl⟩ := List.length_eq_one_iff.mp (by simpa using congrArg List.length hzero)
    obtain rfl : d = 0 := hlast
    rfl
  · exact encode_ofDigits hbase hne hdigits hlast

end

/-! ## Base 36 -/

lemma isNormal_base36_iff {text : List Char} :
    IsNormal 36 text ↔
      text ≠ [] ∧ (∀ c ∈ text, ('0' ≤ c ∧ c ≤ '9') ∨ ('a' ≤ c ∧ c ≤ 'z')) ∧
        (text.head? = some '0' → text = ['0']) := by
  constructor
  · intro h
    exact ⟨h.ne_nil, fun c hc => digit_iff.mp (h.digits c hc), h.lead⟩
  · rintro ⟨hne, hdigits, hlead⟩
    exact ⟨hne, fun c hc => digit_iff.mpr (hdigits c hc), hlead⟩

/-- **Base 36 is a faithful numeral.**  Each number has a numeral, after as many divisions as it
has digits: it holds decimal digits and small letters only, begins with a zero for zero alone, and
is read back.  The texts of this form are numerals of the numbers that they denote, and no other
text is a numeral. -/
theorem base36_faithful (n : Nat) (text : List Char) :
    ((base36 n).length = Nat.log 36 n + 1 ∧
        (∀ c ∈ base36 n, ('0' ≤ c ∧ c ≤ '9') ∨ ('a' ≤ c ∧ c ≤ 'z')) ∧
        ((base36 n).head? = some '0' ↔ n = 0) ∧ decode? 36 (base36 n) = some n) ∧
      ((text ≠ [] ∧ (∀ c ∈ text, ('0' ≤ c ∧ c ≤ '9') ∨ ('a' ≤ c ∧ c ≤ 'z')) ∧
          (text.head? = some '0' → text = ['0'])) ↔
        ∃ m, decode? 36 text = some m ∧ base36 m = text) := by
  have hbase : 2 ≤ 36 := by decide
  have hnormal : ∀ m, IsNormal 36 (base36 m) := isNormal_encode hbase le_rfl
  have hdigits := (isNormal_base36_iff.mp (hnormal n)).2.1
  refine ⟨⟨length_encode hbase n, hdigits, head?_encode hbase le_rfl n,
    decode?_encode hbase le_rfl n⟩, ?_⟩
  rw [← isNormal_base36_iff]
  constructor
  · intro h
    exact h.exists_encode_eq hbase le_rfl
  · rintro ⟨m, _, rfl⟩
    exact hnormal m

example : decode? 36 ['1', 'z', '1', '4', '1', 'z', '3'] = some 0xFFFFFFFF := by decide

end AtomicStyle.Numeral
