import AtomicStyle.Proofs.Number.Nearest

/-!
# How near a rounded value is

No double is nearer to a rational than the one that it rounds to.  All comparisons of rounded
values follow from this, without a look at significands.

**Neighbours.**  A double is a gap away from the numbers with an exponent of their own and a
significand of at most 53 bits (`IsRepresentable`) on either side of it (`IsDouble.add_le_of_lt`,
`IsDouble.le_sub_of_lt`), so none of these is nearer to a rational (`Rounds.nearest`).

**Order.**  Rounding does not pass a representable number (`Rounds.le_of_le`, `Rounds.ge_of_ge`), is
monotone (`Rounds.mono`) and has one result (`Rounds.unique`), which exists up to the largest double
(`exists_rounds`).  So what rounds to at most an even double ends half a gap behind it
(`Rounds.value_le_iff`).

**Distance.**  A rational up to a power of two is moved by `2^-54` of it at most
(`Rounds.error_le`).  What is as near to a double as a rational that rounds to it rounds to it as
well (`Rounds.of_near`), except at the powers of two.
-/

namespace AtomicStyle.Binary64

open Number

/-! ## Neighbours -/

/-- A number of the form of a double, of any size and of any spelling. -/
def IsRepresentable (z : ℚ) : Prop :=
  ∃ a b, a ≤ 2 ^ 53 ∧ minExponent ≤ b ∧ z = value a b

lemma IsDouble.isRepresentable {m : ℕ} {q : ℤ} (h : IsDouble m q) :
    IsRepresentable (value m q) :=
  ⟨m, q, h.lt.le, h.min_le, rfl⟩

lemma isRepresentable_two_zpow {j : ℤ} (h : minExponent ≤ j) : IsRepresentable (2 ^ j) :=
  ⟨1, j, by norm_num, h, by rw [value, Nat.cast_one, one_mul]⟩

lemma value_nonneg (m : ℕ) (q : ℤ) : 0 ≤ value m q :=
  mul_nonneg (Nat.cast_nonneg m) (two_zpow_pos q).le

/-- A representable number is a multiple of a power of two, or below all doubles with that
exponent. -/
lemma IsRepresentable.multiple_or_le {z : ℚ} (h : IsRepresentable z) (q : ℤ) :
    (∃ j : ℕ, z = j * 2 ^ q) ∨ minExponent < q ∧ z ≤ 2 ^ 52 * 2 ^ q := by
  obtain ⟨a, b, ha, hb, rfl⟩ := h
  rcases le_or_gt q b with hle | hlt
  · left
    obtain ⟨k, rfl⟩ := Int.le.dest hle
    refine ⟨a * 2 ^ k, ?_⟩
    rw [value, add_comm, two_zpow_add]
    push_cast
    ring
  · right
    have ha' : (a : ℚ) ≤ 2 ^ 53 := by exact_mod_cast ha
    have hpow : (2 : ℚ) ^ b ≤ 2 ^ (q - 1) := zpow_le_zpow_right₀ one_le_two (by omega)
    refine ⟨by omega, ?_⟩
    calc value a b ≤ 2 ^ 53 * 2 ^ (q - 1) :=
          mul_le_mul ha' hpow (two_zpow_pos b).le (by norm_num)
      _ = 2 ^ 52 * 2 ^ q := by rw [two_zpow_sub_one q]; ring

section

variable {m : ℕ} {q : ℤ} {v z : ℚ}

/-- The next greater number is a gap away. -/
lemma IsDouble.add_le_of_lt (h : IsDouble m q) (hz : IsRepresentable z) (hlt : value m q < z) :
    value m q + 2 ^ q ≤ z := by
  have hpos := two_zpow_pos q
  rw [value] at hlt ⊢
  rcases hz.multiple_or_le q with ⟨j, rfl⟩ | ⟨hq, hle⟩
  · have hsucc : (m : ℚ) + 1 ≤ j := by exact_mod_cast lt_of_mul_lt_mul_right hlt hpos.le
    have hscaled := mul_le_mul_of_nonneg_right hsucc hpos.le
    linarith
  · have hnormal : (2 : ℚ) ^ 52 ≤ m := by exact_mod_cast h.normal.resolve_right hq.ne'
    have hscaled := mul_le_mul_of_nonneg_right hnormal hpos.le
    linarith

/-- The next smaller number is a gap away. -/
lemma IsDouble.le_sub_of_lt (h : IsDouble m q) (hz : IsRepresentable z) (hlt : z < value m q) :
    z ≤ value m q - gapBelow m q := by
  unfold gapBelow
  rw [value] at hlt ⊢
  split_ifs with hpower
  · obtain ⟨rfl, -⟩ := hpower
    have hpos := two_zpow_pos (q - 1)
    rw [two_zpow_sub_one q] at hlt ⊢
    push_cast at hlt ⊢
    rcases hz.multiple_or_le (q - 1) with ⟨j, rfl⟩ | ⟨-, hle⟩
    · have hj : (j : ℚ) * 2 ^ (q - 1) < (2 ^ 53 : ℕ) * 2 ^ (q - 1) := by
        push_cast
        linarith
      have hsucc : (j : ℚ) + 1 ≤ (2 ^ 53 : ℕ) := by
        exact_mod_cast lt_of_mul_lt_mul_right hj hpos.le
      have hscaled := mul_le_mul_of_nonneg_right hsucc hpos.le
      push_cast at hscaled
      linarith
    · linarith
  · have hpos := two_zpow_pos q
    rcases hz.multiple_or_le q with ⟨j, rfl⟩ | ⟨hq, hle⟩
    · have hsucc : (j : ℚ) + 1 ≤ m := by exact_mod_cast lt_of_mul_lt_mul_right hlt hpos.le
      have hscaled := mul_le_mul_of_nonneg_right hsucc hpos.le
      linarith
    · have hnormal := h.normal.resolve_right hq.ne'
      have hsucc : (2 : ℚ) ^ 52 + 1 ≤ m := by
        exact_mod_cast Nat.lt_of_le_of_ne hnormal fun heq => hpower ⟨heq.symm, hq⟩
      have hscaled := mul_le_mul_of_nonneg_right hsucc hpos.le
      linarith

/-- **No representable number is nearer** to a rational than its rounded value. -/
theorem Rounds.nearest (h : Rounds v m q) (hz : IsRepresentable z) :
    |value m q - v| ≤ |z - v| := by
  have hlower := h.lower
  have hupper := h.upper
  rcases lt_trichotomy z (value m q) with hlt | rfl | hgt
  · have hgap := h.double.le_sub_of_lt hz hlt
    rw [abs_sub_comm z v]
    refine le_trans (abs_le.mpr ⟨?_, ?_⟩) (le_abs_self _) <;> linarith
  · exact le_rfl
  · have hgap := h.double.add_le_of_lt hz hgt
    refine le_trans (abs_le.mpr ⟨?_, ?_⟩) (le_abs_self _) <;> linarith

/-! ## Order -/

lemma Rounds.le_of_le (h : Rounds v m q) (hz : IsRepresentable z) (hle : v ≤ z) :
    value m q ≤ z := by
  have hnear := h.nearest hz
  rw [abs_of_nonneg (sub_nonneg.mpr hle)] at hnear
  linarith [le_abs_self (value m q - v)]

lemma Rounds.ge_of_ge (h : Rounds v m q) (hz : IsRepresentable z) (hle : z ≤ v) :
    z ≤ value m q := by
  have hnear := h.nearest hz
  rw [abs_of_nonpos (sub_nonpos.mpr hle)] at hnear
  linarith [neg_abs_le (value m q - v)]

/-- A representable number is not moved. -/
lemma Rounds.value_eq (h : Rounds v m q) (hv : IsRepresentable v) : value m q = v :=
  le_antisymm (h.le_of_le hv le_rfl) (h.ge_of_ge hv le_rfl)

/-- A non-negative rational is a fraction, as which it is rounded. -/
lemma exists_fraction (hv : 0 ≤ v) : ∃ n d : ℕ, 0 < d ∧ v = n / d := by
  refine ⟨v.num.natAbs, v.den, v.pos, ?_⟩
  rw [Nat.cast_natAbs, abs_of_nonneg (Rat.num_nonneg.mpr hv), Rat.num_div_den]

/-- The rounded value is unique. -/
lemma Rounds.unique {m' : ℕ} {q' : ℤ} (hv : 0 ≤ v) (h : Rounds v m q) (h' : Rounds v m' q') :
    m = m' ∧ q = q' := by
  obtain ⟨n, d, hd, rfl⟩ := exists_fraction hv
  rw [← ofRatio_eq_finite_iff hd (b := false)] at h h'
  rw [h] at h'
  simpa using h'

/-- Doubles of one magnitude have one significand and one exponent. -/
lemma IsDouble.eq_of_value_eq {m' : ℕ} {q' : ℤ} (h : IsDouble m q) (h' : IsDouble m' q')
    (hvalue : value m q = value m' q') : m = m' ∧ q = q' :=
  h.rounds.unique (value_nonneg m q) (hvalue ▸ h'.rounds)

/-- **Rounding is monotone.** -/
theorem Rounds.mono {m' : ℕ} {q' : ℤ} {v' : ℚ} (hv : 0 ≤ v) (hle : v ≤ v') (h : Rounds v m q)
    (h' : Rounds v' m' q') : value m q ≤ value m' q' := by
  by_contra hlt
  rw [not_le] at hlt
  -- both lie on the middle of the two, so they are one number
  have hnear := h.nearest h'.double.isRepresentable
  have hnear' := h'.nearest h.double.isRepresentable
  have hlow : value m' q' ≤ v := by
    by_contra hless
    rw [abs_of_pos (sub_pos.mpr (not_le.mp hless))] at hnear
    linarith [le_abs_self (value m q - v)]
  have hhigh : v' ≤ value m q := by
    by_contra hless
    rw [abs_of_neg (sub_neg.mpr (not_le.mp hless))] at hnear'
    linarith [neg_abs_le (value m' q' - v')]
  rw [abs_of_nonneg (by linarith), abs_of_nonpos (by linarith)] at hnear
  rw [abs_of_nonpos (by linarith), abs_of_nonneg (by linarith)] at hnear'
  obtain rfl : v = v' := by linarith
  obtain ⟨rfl, rfl⟩ := h.unique hv h'
  exact lt_irrefl _ hlt

/-- **What rounds to at most an even double** reaches half a gap behind it. -/
theorem Rounds.value_le_iff {a : ℕ} {b : ℤ} (hv : 0 ≤ v) (h : Rounds v m q) (hdouble : IsDouble a b)
    (heven : a % 2 = 0) : value m q ≤ value a b ↔ v ≤ value a b + 2 ^ b / 2 := by
  have hpos := two_zpow_pos b
  have hgap := gapBelow_pos a b
  constructor
  · intro hle
    by_contra hlarge
    rw [not_le] at hlarge
    -- the next representable number would be nearer
    have hnext : IsRepresentable (value a b + 2 ^ b) :=
      ⟨a + 1, b, hdouble.lt, hdouble.min_le, by rw [value, value]; push_cast; ring⟩
    have hnear := h.nearest hnext
    rw [abs_sub_comm, abs_of_nonneg (by linarith), le_abs] at hnear
    rcases hnear with hnear | hnear <;> linarith
  · intro hle
    have hmiddle : Rounds (value a b + 2 ^ b / 2) a b :=
      ⟨hdouble, by linarith, le_rfl, fun hodd => absurd hodd (by omega)⟩
    exact h.mono hv hle hmiddle

/-- Up to the largest double there is a rounded value. -/
lemma exists_rounds (hv : 0 ≤ v) (hmax : v ≤ value (2 ^ 53 - 1) maxExponent) :
    ∃ m q, Rounds v m q := by
  rcases hv.eq_or_lt with rfl | hpos
  · exact ⟨0, minExponent, rounds_zero_iff.mpr ⟨rfl, rfl⟩⟩
  obtain ⟨n, d, hd, rfl⟩ := exists_fraction hv
  have hn : n ≠ 0 := by
    rintro rfl
    simp at hpos
  obtain ⟨k, hk, -⟩ := exists_ofRatio_eq_pack false hn hd
  obtain ⟨hmin, hbelow, hreached⟩ := (stepExponent_eq_iff hpos).mp rfl
  generalize (n : ℚ) / d = v at *
  refine ⟨(carry k _).1, (carry k _).2, rounds_of_carry_eq hpos hk rfl ?_⟩
  rw [value] at hmax
  push_cast at hmax
  have hg : stepExponent v ≤ maxExponent := by
    rcases hreached with hreached | heq
    · have hlt : (2 : ℚ) ^ ((52 : ℕ) + stepExponent v) < 2 ^ ((53 : ℕ) + maxExponent) := by
        rw [two_zpow_add, two_zpow_add]
        have hpow := two_zpow_pos maxExponent
        linarith
      have := (zpow_lt_zpow_iff_right₀ one_lt_two).mp hlt
      omega
    · rw [heq]
      decide
  unfold carry
  split_ifs with htop
  · refine Int.add_one_le_iff.mpr (lt_of_le_of_ne hg fun heq => ?_)
    obtain ⟨⟨hlow, -⟩, -⟩ := (isNearest_div_iff (two_zpow_pos _)).mp hk
    rw [heq, htop] at hlow
    push_cast at hlow
    have hpow := two_zpow_pos maxExponent
    linarith
  · exact hg

/-! ## Distance -/

/-- Only the power itself has a gap above it that is larger than those below it. -/
lemma IsDouble.eq_two_pow (h : IsDouble m q) {j : ℤ} (hj : -1021 ≤ j) (htop : value m q ≤ 2 ^ j)
    (hlarge : j - 53 < q) : m = 2 ^ 52 ∧ minExponent < q ∧ q = j - 52 := by
  have hpos := two_zpow_pos q
  have hq : minExponent < q := by
    rw [minExponent]
    omega
  have hnormal := h.normal.resolve_right hq.ne'
  have hnormal' : (2 : ℚ) ^ 52 ≤ m := by exact_mod_cast hnormal
  rw [value] at htop
  have hpow : (2 : ℚ) ^ ((52 : ℕ) + q) ≤ 2 ^ j := by
    rw [two_zpow_add]
    exact (mul_le_mul_of_nonneg_right hnormal' hpos.le).trans htop
  have hexponent : q = j - 52 := by
    have := (zpow_le_zpow_iff_right₀ one_lt_two).mp hpow
    omega
  have hstep : (2 : ℚ) ^ j = 2 ^ 52 * 2 ^ q := by
    rw [← two_zpow_add, hexponent]
    congr 1
    push_cast
    ring
  refine ⟨le_antisymm (le_of_mul_lt hpos ?_) hnormal, hq, hexponent⟩
  push_cast
  linarith

/-- **Rounding moves little.**  Up to `2^j` the gaps are at most `2^(j - 53)`, and half a gap is the
most that rounding moves. -/
theorem Rounds.error_le (h : Rounds v m q) {j : ℤ} (hj : -1021 ≤ j) (hle : v ≤ 2 ^ j) :
    |value m q - v| ≤ 2 ^ (j - 54) := by
  have htop : value m q ≤ 2 ^ j :=
    h.le_of_le (isRepresentable_two_zpow (by rw [minExponent]; omega)) hle
  have hgap := gapBelow_le m q
  have hlower := h.lower
  have hupper := h.upper
  have hpos := two_zpow_pos (j - 54)
  rcases le_or_gt q (j - 53) with hsmall | hlarge
  · have hpow : (2 : ℚ) ^ q ≤ 2 * 2 ^ (j - 54) := by
      rw [← zpow_one_add₀ two_ne_zero]
      exact zpow_le_zpow_right₀ one_le_two (by omega)
    refine abs_le.mpr ⟨?_, ?_⟩ <;> linarith
  · -- the value is the power of two itself, and `v` is below it
    obtain ⟨rfl, hq, rfl⟩ := h.double.eq_two_pow hj htop hlarge
    have hstep : (2 : ℚ) ^ (j - 52) = 2 ^ 2 * 2 ^ (j - 54) := by
      rw [← two_zpow_add]
      congr 1
      push_cast
      ring
    have hpower : (2 : ℚ) ^ j = 2 ^ 52 * 2 ^ (j - 52) := by
      rw [← two_zpow_add]
      congr 1
      push_cast
      ring
    rw [gapBelow, if_pos ⟨rfl, hq⟩] at hlower
    rw [value] at *
    push_cast at *
    refine abs_le.mpr ⟨?_, ?_⟩ <;> linarith

/-- Where the gaps on both sides are equal, everything within half a gap rounds alike. -/
lemma IsDouble.rounds_of_lt (h : IsDouble m q) (hm : m ≠ 2 ^ 52)
    (hnear : |v - value m q| < 2 ^ q / 2) : Rounds v m q := by
  have hgap : gapBelow m q = 2 ^ q := if_neg fun hpower => hm hpower.1
  obtain ⟨hlow, hhigh⟩ := abs_lt.mp hnear
  exact ⟨h, by linarith, by linarith, fun _ => ⟨by linarith, by linarith⟩⟩

/-- **What is as near rounds alike**, where the gaps on both sides are equal. -/
theorem Rounds.of_near {v' : ℚ} (h : Rounds v m q) (hm : m ≠ 2 ^ 52)
    (hnear : |v' - value m q| ≤ |v - value m q|) : Rounds v' m q := by
  have hgap : gapBelow m q = 2 ^ q := if_neg fun hpower => hm hpower.1
  have hlower := h.lower
  have hupper := h.upper
  rw [hgap] at hlower
  have hhalf : |v - value m q| ≤ 2 ^ q / 2 := abs_le.mpr ⟨by linarith, by linarith⟩
  rcases (hnear.trans hhalf).lt_or_eq with hlt | heq
  · exact h.double.rounds_of_lt hm hlt
  · -- in the middle of two doubles, which the even one takes
    have heven : ¬m % 2 = 1 := by
      intro hodd
      obtain ⟨hlow, hhigh⟩ := h.strict hodd
      rw [hgap] at hlow
      have hless : |v - value m q| < 2 ^ q / 2 := abs_lt.mpr ⟨by linarith, by linarith⟩
      linarith
    obtain ⟨hlow, hhigh⟩ := abs_le.mp heq.le
    exact ⟨h.double, by linarith, by linarith, fun hodd => absurd hodd heven⟩

end

end AtomicStyle.Binary64
