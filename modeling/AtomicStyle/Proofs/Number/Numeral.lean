import AtomicStyle.Number.Numeral
import Mathlib.Data.Nat.Digits.Defs
import Mathlib.Tactic.Lemma
import Mathlib.Tactic.SplitIfs

/-!
# The characters of a numeral

A numeral is made of digits of its base and of nothing else (`exists_digit_of_mem_encode`), so what
holds of all digit characters holds of all characters of a numeral.

**Reading back.**  Digits are read as what they are worth in their places
(`decodeFrom?_reverse_map`).  So a numeral is read back as the number that it was made of
(`decode?_encode`), and different numbers have different numerals.
-/

namespace AtomicStyle.Numeral

/-- Dividing down to zero gives the digits of positional notation. -/
lemma digitsUp_eq_digits {base : Nat} (hbase : 2 ≤ base) (n : Nat) :
    digitsUp base n = Nat.digits base n := by
  induction n using Nat.strongRecOn with
  | ind n ih =>
      rw [digitsUp]
      split_ifs with hn
      · rw [hn, Nat.digits_zero]
      · rw [Nat.max_eq_left hbase, ih (n / base) (Nat.div_lt_self (by omega) (by omega)),
          Nat.digits_def' hbase (Nat.pos_of_ne_zero hn)]

lemma lt_of_mem_digitsUp {base n d : Nat} (hbase : 2 ≤ base) (h : d ∈ digitsUp base n) :
    d < base := by
  rw [digitsUp_eq_digits hbase] at h
  exact Nat.digits_lt_base hbase h

/-- The numeral of a number that is not zero. -/
lemma encode_of_ne_zero {base n : Nat} (hbase : 2 ≤ base) (hn : n ≠ 0) :
    encode base n = ((Nat.digits base n).map digitChar).reverse := by
  rw [encode, if_neg hn, digitsUp_eq_digits hbase]

lemma encode_ne_nil {base n : Nat} (hbase : 2 ≤ base) : encode base n ≠ [] := by
  by_cases hn : n = 0
  · rw [hn, encode_zero]
    exact List.cons_ne_nil _ _
  · simpa [encode_of_ne_zero hbase hn, Nat.digits_eq_nil_iff_eq_zero] using hn

/-- Each character of a numeral is the character of a digit. -/
theorem exists_digit_of_mem_encode {base n : Nat} {c : Char} (hbase : 2 ≤ base)
    (h : c ∈ encode base n) : ∃ d < base, digitChar d = c := by
  rw [encode] at h
  split_ifs at h
  · rw [List.mem_singleton] at h
    subst h
    exact ⟨0, by omega, rfl⟩
  · rw [List.mem_reverse, List.mem_map] at h
    obtain ⟨d, hd, rfl⟩ := h
    exact ⟨d, lt_of_mem_digitsUp hbase hd, rfl⟩

/-! ## Reading back -/

section

variable {base : Nat}

/-- The last digit of a numeral is read last. -/
lemma decodeFrom?_concat (acc : Nat) (text : List Char) {d : Nat} (hd : d < base)
    (hbase : base ≤ 36) :
    decodeFrom? base acc (text ++ [digitChar d]) =
      (decodeFrom? base acc text).map fun n => n * base + d := by
  induction text generalizing acc with
  | nil => simp [decodeFrom?, digitOf?_digitChar (show d < 36 by omega), hd]
  | cons c cs ih =>
      rw [List.cons_append, decodeFrom?, decodeFrom?]
      cases digitOf? c with
      | none => rfl
      | some e =>
          dsimp only
          split_ifs
          · exact ih _
          · rfl

/-- Digits, given from the least significant one, are read as what they are worth in their
places. -/
lemma decodeFrom?_reverse_map (hmax : base ≤ 36) {digits : List Nat}
    (hdigits : ∀ d ∈ digits, d < base) :
    decodeFrom? base 0 (digits.map digitChar).reverse = some (Nat.ofDigits base digits) := by
  induction digits with
  | nil => rfl
  | cons d ds ih =>
      obtain ⟨hd, hds⟩ := List.forall_mem_cons.mp hdigits
      rw [List.map_cons, List.reverse_cons, decodeFrom?_concat 0 _ hd hmax, ih hds, Option.map_some,
        Nat.ofDigits_cons, Nat.add_comm, Nat.mul_comm]

lemma decode?_eq_decodeFrom? {text : List Char} (h : text ≠ []) :
    decode? base text = decodeFrom? base 0 text := by
  cases text with
  | nil => exact absurd rfl h
  | cons c cs => rfl

/-- Digits are read as what they are worth in their places, if there are any. -/
lemma decode?_reverse_map (hmax : base ≤ 36) {digits : List Nat} (hne : digits ≠ [])
    (hdigits : ∀ d ∈ digits, d < base) :
    decode? base (digits.map digitChar).reverse = some (Nat.ofDigits base digits) := by
  rw [decode?_eq_decodeFrom? (by simpa using hne), decodeFrom?_reverse_map hmax hdigits]

/-- **A numeral is read back.** -/
theorem decode?_encode (hbase : 2 ≤ base) (hmax : base ≤ 36) (n : Nat) :
    decode? base (encode base n) = some n := by
  by_cases hn : n = 0
  · have hzero : ∀ d ∈ [0], d < base := List.forall_mem_singleton.mpr (by omega)
    rw [hn, encode_zero]
    exact decode?_reverse_map hmax (List.cons_ne_nil 0 []) hzero
  · rw [encode_of_ne_zero hbase hn, decode?_reverse_map hmax (Nat.digits_ne_nil_iff_ne_zero.mpr hn)
      fun d hd => Nat.digits_lt_base hbase hd, Nat.ofDigits_digits]

/-- Different numbers have different numerals. -/
lemma encode_injective (hbase : 2 ≤ base) (hmax : base ≤ 36) : Function.Injective (encode base) := by
  intro m n h
  have hread := decode?_encode hbase hmax m
  rw [h, decode?_encode hbase hmax n] at hread
  exact (Option.some.inj hread).symm

end

end AtomicStyle.Numeral
