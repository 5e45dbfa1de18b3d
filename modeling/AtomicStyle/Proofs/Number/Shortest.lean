import AtomicStyle.Number.Shortest
import AtomicStyle.Proofs.Number.Nearness
import AtomicStyle.Proofs.Number.Numeral
import Mathlib.Data.Nat.Cast.Order.Field
import Mathlib.Data.Nat.Digits.Lemmas

/-!
# The shortest decimal reads back

The shortest decimal of a double rounds to the double (`rounds_digits`).

**Intervals.**  The decimals in the interval of a double are those that round to it
(`rounds_of_holds`), so what the search finds reads back.

**Grids.**  The search finds something, because on a grid that is finer than half a gap the
neighbour above the value is in the interval (`isSome_onGrid?`), and the eighteenth grid is that
fine: the first one begins at the leading digit of the value (`zpow_decimalOrder_le`).
-/

namespace AtomicStyle.Binary64

lemma dyadic_pos (m : ℕ) (q : ℤ) : 0 < (dyadic m q).2 := by
  unfold dyadic
  split_ifs
  · exact Nat.one_pos
  · exact Nat.two_pow_pos _

/-- The fraction of a double is its magnitude. -/
lemma dyadic_eq (m : ℕ) (q : ℤ) : ((dyadic m q).1 : ℚ) / (dyadic m q).2 = value m q := by
  unfold dyadic value
  split_ifs with hq
  · rw [← Nat.cast_ofNat (R := ℚ), zpow_of_nonneg 2 hq]
    push_cast
    rw [div_one]
  · rw [← Nat.cast_ofNat (R := ℚ), zpow_of_neg 2 hq, div_eq_mul_inv]

end AtomicStyle.Binary64

namespace AtomicStyle.Shortest

open Binary64 Number

lemma ten_zpow_pos (e : ℤ) : (0 : ℚ) < 10 ^ e :=
  zpow_pos (by norm_num) e

/-! ## Intervals -/

section

variable {m : ℕ} {q : ℤ}

lemma interval_unit_pos (m : ℕ) (q : ℤ) : 0 < (interval m q).unit :=
  dyadic_pos 1 (q - 2)

/-- Quarters of the gap above the double are the units of the interval. -/
lemma interval_scaled (k : ℕ) (q : ℤ) :
    ((k * (dyadic 1 (q - 2)).1 : ℕ) : ℚ) / (dyadic 1 (q - 2)).2 = k * (2 ^ q / 4) := by
  have hquarter : (2 : ℚ) ^ (q - 2) = 2 ^ q / 4 := by
    rw [zpow_sub₀ two_ne_zero]
    norm_num
  rw [Nat.cast_mul, mul_div_assoc, dyadic_eq, value, hquarter, Nat.cast_one, one_mul]

lemma interval_value : ((interval m q).value : ℚ) / (interval m q).unit = value m q := by
  have hscaled := interval_scaled (4 * m) q
  push_cast at hscaled
  rw [interval, value]
  push_cast
  linarith

lemma interval_high :
    ((interval m q).high : ℚ) / (interval m q).unit = value m q + 2 ^ q / 2 := by
  have hscaled := interval_scaled (4 * m + 2) q
  push_cast at hscaled
  rw [interval, value]
  push_cast
  linarith

lemma interval_low (hm : 0 < m) :
    ((interval m q).low : ℚ) / (interval m q).unit = value m q - gapBelow m q / 2 := by
  have hpow : Nat.pow 2 52 = 2 ^ 52 := rfl
  rw [interval, value, gapBelow]
  dsimp only
  rw [hpow, interval_scaled]
  split_ifs
  all_goals
    rw [Nat.cast_sub (by omega)]
    push_cast
    linarith

end

/-- A decimal of the interval lies between its ends. -/
lemma Interval.holds_iff {i : Interval} (hunit : 0 < i.unit) {c : ℕ} {e : ℤ} :
    i.holds c e = true ↔
      if i.closed then (i.low : ℚ) / i.unit ≤ c * 10 ^ e ∧ c * 10 ^ e ≤ (i.high : ℚ) / i.unit
      else (i.low : ℚ) / i.unit < c * 10 ^ e ∧ c * 10 ^ e < (i.high : ℚ) / i.unit := by
  have hunit' : (0 : ℚ) < i.unit := by exact_mod_cast hunit
  obtain ⟨num, den, hden, hvalue, hholds⟩ : ∃ num den : ℕ, 0 < den ∧
      (c * 10 ^ e * i.unit : ℚ) = num / den ∧
        i.holds c e =
          if i.closed then decide (i.low * den ≤ num) && decide (num ≤ i.high * den)
          else decide (i.low * den < num) && decide (num < i.high * den) := by
    refine ⟨_, _, ?_, ?_, rfl⟩
    · split_ifs
      · exact Nat.one_pos
      · exact Nat.pow_pos (by decide)
    · rw [← Nat.cast_ofNat (R := ℚ)]
      split_ifs with he
      · rw [zpow_of_nonneg 10 he]
        push_cast
        rw [div_one]
      · rw [zpow_of_neg 10 he]
        push_cast
        ring
  have hden' : (0 : ℚ) < den := by exact_mod_cast hden
  have hlow : i.low * den ≤ num ↔ (i.low : ℚ) / i.unit ≤ c * 10 ^ e := by
    rw [div_le_iff₀ hunit', hvalue, le_div_iff₀ hden']
    norm_cast
  have hhigh : num ≤ i.high * den ↔ c * 10 ^ e ≤ (i.high : ℚ) / i.unit := by
    rw [le_div_iff₀ hunit', hvalue, div_le_iff₀ hden']
    norm_cast
  have hlow' : i.low * den < num ↔ (i.low : ℚ) / i.unit < c * 10 ^ e := by
    rw [div_lt_iff₀ hunit', hvalue, lt_div_iff₀ hden']
    norm_cast
  have hhigh' : num < i.high * den ↔ c * 10 ^ e < (i.high : ℚ) / i.unit := by
    rw [lt_div_iff₀ hunit', hvalue, div_lt_iff₀ hden']
    norm_cast
  rw [hholds]
  split_ifs
  · rw [Bool.and_eq_true, decide_eq_true_eq, decide_eq_true_eq, hlow, hhigh]
  · rw [Bool.and_eq_true, decide_eq_true_eq, decide_eq_true_eq, hlow', hhigh']

/-- **The decimals of the interval read back.** -/
theorem rounds_of_holds {m : ℕ} {q : ℤ} (hdouble : IsDouble m q) (hm : 0 < m) {c : ℕ} {e : ℤ}
    (h : (interval m q).holds c e = true) : Rounds (c * 10 ^ e) m q := by
  rw [Interval.holds_iff (interval_unit_pos m q), interval_low hm, interval_high] at h
  have hclosed : (interval m q).closed = (m % 2 == 0) := rfl
  rw [hclosed] at h
  split_ifs at h with heven
  · exact ⟨hdouble, h.1, h.2, fun hodd => by rw [hodd] at heven; cases heven⟩
  · exact ⟨hdouble, h.1.le, h.2.le, fun _ => h⟩

/-! ## Grids -/

lemma roundDiv_eq (n d : ℕ) : roundDiv n d = n / d ∨ roundDiv n d = n / d + 1 := by
  unfold roundDiv
  dsimp only
  split_ifs <;> simp

/-- What is found on a grid is in the interval. -/
lemma Interval.holds_of_onGrid? {i : Interval} {e : ℤ} {c : ℕ} (h : i.onGrid? e = some c) :
    i.holds c e = true := by
  unfold onGrid? at h
  dsimp only at h
  generalize (if 0 ≤ e then i.value else i.value * Nat.pow 10 (-e).toNat) = num at h
  generalize (if 0 ≤ e then i.unit * Nat.pow 10 e.toNat else i.unit) = den at h
  split at h
  case h_1 => cases h
  case h_2 hlower _ =>
      obtain rfl := Option.some.inj h
      exact hlower
  case h_3 _ hupper =>
      obtain rfl := Option.some.inj h
      exact hupper
  case h_4 hlower hupper =>
      obtain rfl := Option.some.inj h
      rcases roundDiv_eq num den with heq | heq
      · rwa [heq]
      · rwa [heq]

/-- Of the neighbours of the value on a grid, the upper one is enough. -/
lemma Interval.exists_lower (i : Interval) (hunit : 0 < i.unit) (e : ℤ) :
    ∃ lower : ℕ, (i.value : ℚ) / i.unit < (lower + 1 : ℕ) * 10 ^ e ∧
      (lower + 1 : ℕ) * 10 ^ e ≤ (i.value : ℚ) / i.unit + 10 ^ e ∧
        (i.holds (lower + 1) e = true → (i.onGrid? e).isSome = true) := by
  have hten := ten_zpow_pos e
  have hgrid :
      ((if 0 ≤ e then i.value else i.value * Nat.pow 10 (-e).toNat : ℕ) : ℚ) /
          (if 0 ≤ e then i.unit * Nat.pow 10 e.toNat else i.unit : ℕ) =
        (i.value : ℚ) / i.unit / 10 ^ e := by
    rw [← Nat.cast_ofNat (R := ℚ)]
    split_ifs with he
    · rw [zpow_of_nonneg 10 he, Nat.cast_mul, div_div]
    · rw [zpow_of_neg 10 he, Nat.cast_mul, div_inv_eq_mul, div_mul_eq_mul_div]
  have hden : 0 < (if 0 ≤ e then i.unit * Nat.pow 10 e.toNat else i.unit) := by
    split_ifs
    · exact Nat.mul_pos hunit (Nat.pow_pos (by decide))
    · exact hunit
  unfold onGrid?
  dsimp only
  generalize (if 0 ≤ e then i.value else i.value * Nat.pow 10 (-e).toNat) = num at *
  generalize (if 0 ≤ e then i.unit * Nat.pow 10 e.toNat else i.unit) = den at *
  have hden' : (0 : ℚ) < den := by exact_mod_cast hden
  have hlow : (num / den : ℕ) * (den : ℚ) ≤ num := by exact_mod_cast Nat.div_mul_le_self num den
  have hhigh : (num : ℚ) < (num / den + 1 : ℕ) * den := by
    exact_mod_cast mul_comm den _ ▸ Nat.lt_mul_div_succ num hden
  rw [← div_lt_iff₀ hden', hgrid, div_lt_iff₀ hten] at hhigh
  rw [← le_div_iff₀ hden', hgrid, le_div_iff₀ hten] at hlow
  refine ⟨num / den, hhigh, ?_, fun h => ?_⟩
  · push_cast at hlow ⊢
    linarith
  · rw [h]
    cases i.holds (num / den) e <;> rfl

/-- A grid finer than half a gap holds a decimal of the interval. -/
lemma isSome_onGrid? {m : ℕ} {q : ℤ} (hm : 0 < m) {e : ℤ} (hfine : (10 : ℚ) ^ e < 2 ^ q / 2) :
    ((interval m q).onGrid? e).isSome = true := by
  have hunit := interval_unit_pos m q
  have hgap := gapBelow_pos m q
  obtain ⟨lower, habove, hnear, hsome⟩ := (interval m q).exists_lower hunit e
  rw [interval_value] at habove hnear
  refine hsome ((Interval.holds_iff hunit).mpr ?_)
  rw [interval_low hm, interval_high]
  split_ifs
  · constructor <;> linarith
  · constructor <;> linarith

/-- The first decimal that is found reads back, if there is one on the last grid. -/
lemma holds_search {i : Interval} {e : ℤ} {fuel : ℕ}
    (h : (i.onGrid? (e - fuel)).isSome = true) :
    i.holds (search i e (fuel + 1)).1 (search i e (fuel + 1)).2 = true := by
  induction fuel generalizing e with
  | zero =>
      obtain ⟨c, hc⟩ := Option.isSome_iff_exists.mp h
      rw [Nat.cast_zero, sub_zero] at hc
      rw [search, hc]
      exact Interval.holds_of_onGrid? hc
  | succ fuel ih =>
      rw [search]
      cases hc : i.onGrid? e with
      | some c => exact Interval.holds_of_onGrid? hc
      | none =>
          refine ih ?_
          rwa [Nat.cast_succ, ← sub_sub, sub_right_comm] at h

/-- Dropping zeros keeps the number. -/
lemma dropZeros_value (c : ℕ) (e : ℤ) :
    ((dropZeros c e).1 : ℚ) * 10 ^ (dropZeros c e).2 = c * 10 ^ e := by
  induction c, e using dropZeros.induct with
  | case1 e => rw [dropZeros, if_pos rfl]
  | case2 c e hc hzero ih =>
      have hten : (c : ℚ) = 10 * (c / 10 : ℕ) := by
        have := Nat.div_add_mod c 10
        exact_mod_cast (show c = 10 * (c / 10) by omega)
      rw [dropZeros, if_neg hc, if_pos hzero, ih, add_comm, zpow_one_add₀ (by norm_num), hten]
      ring
  | case3 c e hc hlast => rw [dropZeros, if_neg hc, if_neg hlast]

/-! ## The leading digit -/

lemma digitCount_eq (n : ℕ) : digitCount n = (Nat.digits 10 n).length := by
  rw [digitCount, Numeral.digitsUp_eq_digits (by decide)]

lemma digitCount_pos {n : ℕ} (hn : n ≠ 0) : 0 < digitCount n := by
  rw [digitCount_eq]
  exact List.length_pos_iff.mpr (Nat.digits_ne_nil_iff_ne_zero.mpr hn)

lemma lt_pow_digitCount (n : ℕ) : n < 10 ^ digitCount n := by
  rw [digitCount_eq]
  exact Nat.lt_base_pow_length_digits (by decide)

lemma pow_digitCount_le {n : ℕ} (hn : n ≠ 0) : 10 ^ (digitCount n - 1) ≤ n := by
  have hpos := digitCount_pos hn
  rw [digitCount_eq] at hpos ⊢
  exact (Nat.lt_digits_length_iff (by decide) n).mp (by omega)

/-- A decimal has the size of its leading digit. -/
lemma zpow_le_decimal {c : ℕ} (hc : c ≠ 0) (e : ℤ) :
    (10 : ℚ) ^ (e + digitCount c - 1) ≤ c * 10 ^ e := by
  have hlow : (10 : ℚ) ^ ((digitCount c - 1 : ℕ) : ℤ) ≤ c := by
    exact_mod_cast pow_digitCount_le hc
  have hexponent : e + digitCount c - 1 = (digitCount c - 1 : ℕ) + e := by
    have hpos := digitCount_pos hc
    omega
  rw [hexponent, zpow_add₀ (by norm_num)]
  exact mul_le_mul_of_nonneg_right hlow (ten_zpow_pos e).le

lemma decimal_lt_zpow (c : ℕ) (e : ℤ) : (c : ℚ) * 10 ^ e < 10 ^ (e + digitCount c) := by
  have hhigh : (c : ℚ) < 10 ^ (digitCount c : ℤ) := by
    exact_mod_cast lt_pow_digitCount c
  rw [add_comm, zpow_add₀ (by norm_num)]
  exact mul_lt_mul_of_pos_right hhigh (ten_zpow_pos e)

/-- The order of a fraction reaches up to its leading digit. -/
lemma zpow_decimalOrder_le {n d : ℕ} (hn : n ≠ 0) (hd : d ≠ 0) :
    (10 : ℚ) ^ (decimalOrder n d - 1) ≤ n / d := by
  have hd' : (0 : ℚ) < d := by exact_mod_cast Nat.pos_of_ne_zero hd
  have hinv : ∀ k : ℕ, (10 : ℚ) ^ (-(k : ℤ)) ≤ n / d ↔ d ≤ n * 10 ^ k := by
    intro k
    rw [zpow_neg, zpow_natCast, inv_le_iff_one_le_mul₀ (by positivity), div_mul_eq_mul_div,
      le_div_iff₀ hd', one_mul]
    norm_cast
  unfold decimalOrder
  dsimp only
  split_ifs with hle hreached
  · have hquotient : n / d ≠ 0 := (Nat.div_pos hle (Nat.pos_of_ne_zero hd)).ne'
    have hexponent : (digitCount (n / d) : ℤ) - 1 = (digitCount (n / d) - 1 : ℕ) := by
      have hpos := digitCount_pos hquotient
      omega
    rw [hexponent, zpow_natCast]
    refine le_trans ?_ Nat.cast_div_le
    exact_mod_cast pow_digitCount_le hquotient
  · have hquotient : d / n ≠ 0 :=
      (Nat.div_pos (Nat.not_le.mp hle).le (Nat.pos_of_ne_zero hn)).ne'
    have hexponent : 2 - (digitCount (d / n) : ℤ) - 1 = -(digitCount (d / n) - 1 : ℕ) := by
      have hpos := digitCount_pos hquotient
      omega
    rw [hexponent, hinv]
    exact hreached
  · have hexponent : 1 - (digitCount (d / n) : ℤ) - 1 = -(digitCount (d / n) : ℕ) := by omega
    have hlt := lt_pow_digitCount (d / n)
    rw [Nat.div_lt_iff_lt_mul (Nat.pos_of_ne_zero hn)] at hlt
    rw [hexponent, hinv, mul_comm]
    exact hlt.le

/-- **The shortest decimal of a double reads back.** -/
theorem rounds_digits {m : ℕ} {q : ℤ} (hdouble : IsDouble m q) (hm : 0 < m) :
    Rounds ((digits m q).1 * 10 ^ (digits m q).2) m q := by
  have hunit := interval_unit_pos m q
  have hvalue := interval_value (m := m) (q := q)
  have hpos := two_zpow_pos q
  have hne : (interval m q).value ≠ 0 := by
    intro hzero
    rw [hzero, Nat.cast_zero, zero_div, value] at hvalue
    have : (0 : ℚ) < m * 2 ^ q := mul_pos (by exact_mod_cast hm) hpos
    linarith
  have horder := zpow_decimalOrder_le hne hunit.ne'
  rw [hvalue] at horder
  unfold digits
  dsimp only
  generalize decimalOrder (interval m q).value (interval m q).unit = k at *
  rw [dropZeros_value]
  refine rounds_of_holds hdouble hm (holds_search (isSome_onGrid? hm ?_))
  have hstep : (10 : ℚ) ^ (k - 1) = 10 ^ 17 * 10 ^ (k - 1 - (17 : ℕ)) := by
    rw [← zpow_natCast, ← zpow_add₀ (by norm_num)]
    congr 1
    ring
  have hlt := hdouble.value_lt
  generalize (10 : ℚ) ^ (k - 1 - (17 : ℕ)) = step at *
  linarith

end AtomicStyle.Shortest
