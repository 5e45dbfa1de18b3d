import AtomicStyle.Proofs.Number.Range
import Mathlib.Algebra.Order.Field.Power
import Mathlib.Data.Int.Log
import Mathlib.Data.Rat.Floor
import Mathlib.Tactic.Linarith
import Mathlib.Tactic.Positivity
import Mathlib.Tactic.Ring

/-!
# The nearest double

The magnitudes of the finite doubles are the rationals `m · 2^q` of `IsDouble`.  Between two of
them lies a gap, and each is the rounded result of the rationals up to the middle of the gaps on
its two sides (`Rounds`).  The gap below a power of two is half the gap above it, except at the
smallest exponent.

**Rounding.**  `roundDiv` finds the nearest integer (`isNearest_roundDiv`), and there is only one
(`IsNearest.unique`).  The exponent that `ofRatio` rounds at is the binary logarithm of the
fraction, so what it gives is the double whose gaps the fraction lies in (`ofRatio_eq_finite_iff`).
-/

namespace AtomicStyle

/-! ## Nearest integers -/

namespace Number

/-- `k` is an integer nearest to `v`, and the even one of two. -/
structure IsNearest (v : ℚ) (k : ℕ) : Prop where
  near : |v - k| ≤ 1 / 2
  strict : k % 2 = 1 → |v - k| < 1 / 2

/-- There is only one nearest integer, because of two neighbours only one is even. -/
lemma IsNearest.unique {v : ℚ} {k l : ℕ} (hk : IsNearest v k) (hl : IsNearest v l) : k = l := by
  wlog hle : k ≤ l generalizing k l
  · exact (this hl hk (by omega)).symm
  rcases Nat.lt_or_ge l (k + 2) with hclose | hfar
  · rcases Nat.eq_or_lt_of_le hle with heq | hlt
    · exact heq
    · obtain rfl : l = k + 1 := by omega
      have hk' := abs_le.mp hk.near
      have hl' := abs_le.mp hl.near
      push_cast at hl'
      rcases Nat.mod_two_eq_zero_or_one k with heven | hodd
      · have hstrict := abs_lt.mp (hl.strict (by omega))
        push_cast at hstrict
        linarith
      · have hstrict := abs_lt.mp (hk.strict hodd)
        linarith
  · have hfar' : (k : ℚ) + 2 ≤ l := by exact_mod_cast hfar
    have hk' := abs_le.mp hk.near
    have hl' := abs_le.mp hl.near
    linarith

/-- A half goes to the even neighbour. -/
lemma roundDiv_strict (n : ℕ) {d : ℕ} (h : 0 < d) (hodd : roundDiv n d % 2 = 1) :
    2 * (roundDiv n d * d) < 2 * n + d ∧ 2 * n < 2 * (roundDiv n d * d) + d := by
  have hn := Nat.div_add_mod' n d
  have hr := Nat.mod_lt n h
  simp only [roundDiv] at hodd ⊢
  generalize n / d = k at *
  generalize n % d = r at *
  have hs : (k + 1) * d = k * d + d := by rw [Nat.add_mul, Nat.one_mul]
  split_ifs at hodd ⊢
  · omega
  · rw [hs]
    omega
  · omega
  · omega

/-- The nearest multiple of a step. -/
lemma isNearest_div_iff {v t : ℚ} (ht : 0 < t) {k : ℕ} :
    IsNearest (v / t) k ↔
      (k * t - t / 2 ≤ v ∧ v ≤ k * t + t / 2) ∧
        (k % 2 = 1 → k * t - t / 2 < v ∧ v < k * t + t / 2) := by
  have hscaled : |v / t - k| = |v - k * t| / t := by
    rw [div_sub' ht.ne', abs_div, abs_of_pos ht, mul_comm]
  have hle : |v / t - k| ≤ 1 / 2 ↔ k * t - t / 2 ≤ v ∧ v ≤ k * t + t / 2 := by
    rw [hscaled, div_le_iff₀ ht, abs_le]
    constructor <;> rintro ⟨hlow, hhigh⟩ <;> constructor <;> linarith
  have hlt : |v / t - k| < 1 / 2 ↔ k * t - t / 2 < v ∧ v < k * t + t / 2 := by
    rw [hscaled, div_lt_iff₀ ht, abs_lt]
    constructor <;> rintro ⟨hlow, hhigh⟩ <;> constructor <;> linarith
  constructor
  · exact fun h => ⟨hle.mp h.near, fun hodd => hlt.mp (h.strict hodd)⟩
  · exact fun ⟨hnear, hstrict⟩ => ⟨hle.mpr hnear, fun hodd => hlt.mpr (hstrict hodd)⟩

/-- **A rounded quotient is a nearest integer.** -/
theorem isNearest_roundDiv (n : ℕ) {d : ℕ} (h : 0 < d) :
    IsNearest ((n : ℚ) / d) (roundDiv n d) := by
  refine (isNearest_div_iff (by exact_mod_cast h)).mpr ⟨?_, fun hodd => ?_⟩
  · obtain ⟨hlow, hhigh⟩ := roundDiv_near n h
    have hlow' : 2 * ((roundDiv n d : ℚ) * d) ≤ 2 * n + d := by exact_mod_cast hlow
    have hhigh' : 2 * (n : ℚ) ≤ 2 * (roundDiv n d * d) + d := by exact_mod_cast hhigh
    constructor <;> linarith
  · obtain ⟨hlow, hhigh⟩ := roundDiv_strict n h hodd
    have hlow' : 2 * ((roundDiv n d : ℚ) * d) < 2 * n + d := by exact_mod_cast hlow
    have hhigh' : 2 * (n : ℚ) < 2 * (roundDiv n d * d) + d := by exact_mod_cast hhigh
    constructor <;> linarith

end Number

/-! ## Powers with an integer exponent -/

lemma zpow_of_nonneg (b : ℕ) {e : ℤ} (he : 0 ≤ e) :
    (b : ℚ) ^ e = (Nat.pow b e.toNat : ℕ) := by
  obtain ⟨k, rfl⟩ := Int.eq_ofNat_of_zero_le he
  rw [zpow_natCast, Int.toNat_natCast, Nat.pow_eq, Nat.cast_pow]

lemma zpow_of_neg (b : ℕ) {e : ℤ} (he : ¬0 ≤ e) :
    (b : ℚ) ^ e = ((Nat.pow b (-e).toNat : ℕ) : ℚ)⁻¹ := by
  obtain ⟨k, hk⟩ := Int.eq_ofNat_of_zero_le (show 0 ≤ -e by omega)
  obtain rfl : e = -k := by omega
  rw [zpow_neg, zpow_natCast, neg_neg, Int.toNat_natCast, Nat.pow_eq, Nat.cast_pow]

namespace Binary64

open Number

lemma two_zpow_pos (q : ℤ) : (0 : ℚ) < 2 ^ q :=
  zpow_pos two_pos q

lemma two_zpow_add (n : ℕ) (q : ℤ) : (2 : ℚ) ^ (n + q) = 2 ^ n * 2 ^ q := by
  rw [zpow_add₀ two_ne_zero, zpow_natCast]

lemma two_zpow_sub_one (q : ℤ) : (2 : ℚ) ^ q = 2 * 2 ^ (q - 1) := by
  rw [← zpow_one_add₀ two_ne_zero, add_sub_cancel]

/-! ## Doubles -/

/-- The magnitude of a finite double. -/
def value (m : ℕ) (q : ℤ) : ℚ :=
  m * 2 ^ q

/-- The significand and the exponent of a finite double. -/
structure IsDouble (m : ℕ) (q : ℤ) : Prop where
  lt : m < 2 ^ 53
  min_le : minExponent ≤ q
  le_max : q ≤ maxExponent
  normal : 2 ^ 52 ≤ m ∨ q = minExponent

lemma IsDouble.value_lt {m : ℕ} {q : ℤ} (h : IsDouble m q) : value m q < 2 ^ 53 * 2 ^ q :=
  mul_lt_mul_of_pos_right (by exact_mod_cast h.lt) (two_zpow_pos q)

/-- The gap between a double and the next smaller one. -/
def gapBelow (m : ℕ) (q : ℤ) : ℚ :=
  if m = 2 ^ 52 ∧ minExponent < q then 2 ^ q / 2 else 2 ^ q

/-- The double with the given significand and exponent is the rounded `v`: half the gaps on either
side reach to `v`, and a middle of two doubles belongs to the even one. -/
structure Rounds (v : ℚ) (m : ℕ) (q : ℤ) : Prop where
  double : IsDouble m q
  lower : value m q - gapBelow m q / 2 ≤ v
  upper : v ≤ value m q + 2 ^ q / 2
  strict : m % 2 = 1 → value m q - gapBelow m q / 2 < v ∧ v < value m q + 2 ^ q / 2

lemma gapBelow_le (m : ℕ) (q : ℤ) : gapBelow m q ≤ 2 ^ q := by
  have hpos := two_zpow_pos q
  unfold gapBelow
  split_ifs <;> linarith

lemma gapBelow_pos (m : ℕ) (q : ℤ) : 0 < gapBelow m q := by
  have hpos := two_zpow_pos q
  unfold gapBelow
  split_ifs <;> linarith

/-- A double is its own rounded value. -/
lemma IsDouble.rounds {m : ℕ} {q : ℤ} (h : IsDouble m q) : Rounds (value m q) m q := by
  have hbelow := gapBelow_pos m q
  have habove := two_zpow_pos q
  exact ⟨h, by linarith, by linarith, fun _ => ⟨by linarith, by linarith⟩⟩

/-! ## Rounding a fraction -/

/-- The order of a fraction is its binary logarithm. -/
lemma binaryOrder_eq_log {n d : ℕ} (hn : n ≠ 0) (hd : d ≠ 0) :
    binaryOrder n d = Int.log 2 ((n : ℚ) / d) := by
  have hn' : (0 : ℚ) < n := by exact_mod_cast Nat.pos_of_ne_zero hn
  have hd' : (0 : ℚ) < d := by exact_mod_cast Nat.pos_of_ne_zero hd
  have hv : (0 : ℚ) < n / d := div_pos hn' hd'
  have hreached : ∀ e : ℤ,
      (if 0 ≤ e then d * Nat.pow 2 e.toNat ≤ n else d ≤ n * Nat.pow 2 (-e).toNat) ↔
        e ≤ Int.log 2 ((n : ℚ) / d) := by
    intro e
    rw [← Int.zpow_le_iff_le_log one_lt_two hv, le_div_iff₀ hd']
    split_ifs with he
    · rw [zpow_of_nonneg 2 he, mul_comm]
      norm_cast
    · have hpow : (0 : ℚ) < (Nat.pow 2 (-e).toNat : ℕ) := by exact_mod_cast Nat.two_pow_pos _
      rw [zpow_of_neg 2 he, inv_mul_le_iff₀ hpow, mul_comm]
      norm_cast
  -- the logarithm is the difference of those of the terms, or one less
  have hlow : ∀ k : ℕ, k ≠ 0 → (2 : ℚ) ^ (k.log2 : ℤ) ≤ k := fun k hk => by
    exact_mod_cast Nat.log2_self_le hk
  have hhigh : ∀ k : ℕ, (k : ℚ) < 2 ^ ((k.log2 : ℤ) + 1) := fun k => by
    exact_mod_cast Nat.lt_log2_self
  have hfrom : (n.log2 : ℤ) - d.log2 - 1 ≤ Int.log 2 ((n : ℚ) / d) := by
    rw [← Int.zpow_le_iff_le_log one_lt_two hv, le_div_iff₀ hd']
    calc (2 : ℚ) ^ ((n.log2 : ℤ) - d.log2 - 1) * d
        ≤ 2 ^ ((n.log2 : ℤ) - d.log2 - 1) * 2 ^ ((d.log2 : ℤ) + 1) :=
          mul_le_mul_of_nonneg_left (hhigh d).le (two_zpow_pos _).le
      _ = 2 ^ (n.log2 : ℤ) := by rw [← zpow_add₀ two_ne_zero]; congr 1; ring
      _ ≤ n := hlow n hn
  have hto : Int.log 2 ((n : ℚ) / d) < (n.log2 : ℤ) - d.log2 + 1 := by
    rw [← Int.lt_zpow_iff_log_lt one_lt_two hv, div_lt_iff₀ hd']
    calc (n : ℚ) < 2 ^ ((n.log2 : ℤ) + 1) := hhigh n
      _ = 2 ^ ((n.log2 : ℤ) - d.log2 + 1) * 2 ^ (d.log2 : ℤ) := by
          rw [← zpow_add₀ two_ne_zero]; congr 1; ring
      _ ≤ 2 ^ ((n.log2 : ℤ) - d.log2 + 1) * d :=
          mul_le_mul_of_nonneg_left (hlow d hd) (two_zpow_pos _).le
  unfold binaryOrder
  dsimp only
  simp only [hreached]
  split_ifs <;> omega

/-- The exponent of the step that a positive rational is rounded to a multiple of. -/
def stepExponent (v : ℚ) : ℤ :=
  max (Int.log 2 v - 52) minExponent

lemma stepExponent_eq_iff {v : ℚ} (hv : 0 < v) {q : ℤ} :
    stepExponent v = q ↔
      minExponent ≤ q ∧ v < 2 ^ 53 * 2 ^ q ∧ (2 ^ 52 * 2 ^ q ≤ v ∨ q = minExponent) := by
  have hbelow : v < 2 ^ 53 * 2 ^ q ↔ Int.log 2 v < 53 + q := by
    rw [← two_zpow_add, ← Int.lt_zpow_iff_log_lt one_lt_two hv]
    rfl
  have hreached : 2 ^ 52 * 2 ^ q ≤ v ↔ 52 + q ≤ Int.log 2 v := by
    rw [← two_zpow_add, ← Int.zpow_le_iff_le_log one_lt_two hv]
    rfl
  rw [hbelow, hreached, stepExponent]
  omega

/-- A positive fraction is rounded to a multiple of its step. -/
lemma exists_ofRatio_eq_pack (negative : Bool) {n d : ℕ} (hn : n ≠ 0) (hd : 0 < d) :
    ∃ k, IsNearest ((n : ℚ) / d / 2 ^ stepExponent (n / d)) k ∧
      ofRatio negative n d = pack negative k (stepExponent (n / d)) := by
  unfold ofRatio
  rw [if_neg hn, binaryOrder_eq_log hn hd.ne', ← stepExponent]
  generalize stepExponent ((n : ℚ) / d) = q
  refine ⟨_, ?_, rfl⟩
  split_ifs with hq
  · have hden : 0 < d * Nat.pow 2 q.toNat := Nat.mul_pos hd (Nat.two_pow_pos _)
    have hnear := isNearest_roundDiv n hden
    rwa [Nat.cast_mul, ← div_div, ← zpow_of_nonneg 2 hq] at hnear
  · have hnear := isNearest_roundDiv (n * Nat.pow 2 (-q).toNat) hd
    rwa [Nat.cast_mul, mul_div_right_comm, ← inv_inv ((Nat.pow 2 (-q).toNat : ℕ) : ℚ),
      ← zpow_of_neg 2 hq, ← div_eq_mul_inv] at hnear

/-- The significand and the exponent behind the carry of a significand of `2^53`. -/
def carry (k : ℕ) (q : ℤ) : ℕ × ℤ :=
  if k = 2 ^ 53 then (2 ^ 52, q + 1) else (k, q)

lemma pack_eq (negative : Bool) (k : ℕ) (g : ℤ) : pack negative k g =
    if maxExponent < (carry k g).2 then .infinite negative
    else .finite negative (carry k g).1 (carry k g).2 := rfl

lemma pack_eq_finite_iff {negative : Bool} {k m : ℕ} {g q : ℤ} :
    pack negative k g = .finite negative m q ↔ carry k g = (m, q) ∧ q ≤ maxExponent := by
  rw [pack_eq]
  obtain ⟨m', q'⟩ := carry k g
  dsimp only
  split_ifs with hlarge
  · refine iff_of_false nofun fun ⟨heq, hmax⟩ => ?_
    obtain ⟨rfl, rfl⟩ := Prod.mk.inj heq
    omega
  · rw [finite.injEq, Prod.mk.injEq]
    constructor
    · rintro ⟨-, rfl, rfl⟩
      exact ⟨⟨rfl, rfl⟩, by omega⟩
    · rintro ⟨⟨rfl, rfl⟩, -⟩
      exact ⟨rfl, rfl, rfl⟩

/-- Multiples of a step are a step apart. -/
lemma le_of_mul_lt {t : ℚ} (ht : 0 < t) {j k : ℕ} (h : j * t < k * t + t) : j ≤ k := by
  by_contra hlt
  have hsucc : (k : ℚ) + 1 ≤ j := by exact_mod_cast Nat.not_le.mp hlt
  have hscaled := mul_le_mul_of_nonneg_right hsucc ht.le
  linarith

section

variable {v : ℚ} {k m : ℕ} {q : ℤ}

/-- In the smaller gap below a power of two, the step is half of the gap above it. -/
lemma Rounds.carry_of_lt (h : Rounds v (2 ^ 52) q) (hq : minExponent < q)
    (hless : v < value (2 ^ 52) q) :
    stepExponent v = q - 1 ∧ IsNearest (v / 2 ^ (q - 1)) (2 ^ 53) := by
  have hpos := two_zpow_pos (q - 1)
  have hlower := h.lower
  rw [gapBelow, if_pos ⟨rfl, hq⟩, value, two_zpow_sub_one] at hlower
  rw [value, two_zpow_sub_one] at hless
  push_cast at hlower hless
  constructor
  · refine (stepExponent_eq_iff ?_).mpr ⟨by omega, by linarith, Or.inl (by linarith)⟩
    linarith
  · refine (isNearest_div_iff hpos).mpr ⟨?_, fun hodd => absurd hodd (by decide)⟩
    push_cast
    constructor <;> linarith

/-- Elsewhere the exponent of a double is that of the step. -/
lemma Rounds.isNearest (h : Rounds v m q) (hv : 0 < v)
    (hpower : m = 2 ^ 52 → minExponent < q → value m q ≤ v) :
    stepExponent v = q ∧ IsNearest (v / 2 ^ q) m := by
  have hpos := two_zpow_pos q
  have hgap := gapBelow_le m q
  have hlower := h.lower
  have hupper := h.upper
  rw [value] at hlower hupper hpower
  constructor
  · have hlt : (m : ℚ) * 2 ^ q ≤ (2 ^ 53 - 1) * 2 ^ q := by
      refine mul_le_mul_of_nonneg_right (le_sub_iff_add_le.mpr ?_) hpos.le
      exact_mod_cast h.double.lt
    refine (stepExponent_eq_iff hv).mpr ⟨h.double.min_le, by linarith, ?_⟩
    refine or_iff_not_imp_right.mpr fun hq => ?_
    have hmin := h.double.min_le
    rcases Nat.eq_or_lt_of_le (h.double.normal.resolve_right hq) with rfl | hsucc
    · have hle := hpower rfl (by omega)
      push_cast at hle
      exact hle
    · have hsucc' : (2 : ℚ) ^ 52 + 1 ≤ m := by exact_mod_cast hsucc
      have hscaled := mul_le_mul_of_nonneg_right hsucc' hpos.le
      linarith
  · refine (isNearest_div_iff hpos).mpr ⟨⟨by linarith, hupper⟩, fun hodd => ?_⟩
    obtain ⟨hlow, hhigh⟩ := h.strict hodd
    rw [value] at hlow hhigh
    exact ⟨by linarith, hhigh⟩

/-- What a rational rounds to is the multiple of its step that it is nearest to, behind the
carry. -/
lemma Rounds.carry_eq (h : Rounds v m q) (hv : 0 < v)
    (hk : IsNearest (v / 2 ^ stepExponent v) k) : carry k (stepExponent v) = (m, q) := by
  by_cases hpower : (m = 2 ^ 52 ∧ minExponent < q) ∧ v < value m q
  · obtain ⟨⟨rfl, hq⟩, hless⟩ := hpower
    obtain ⟨hstep, hnear⟩ := h.carry_of_lt hq hless
    rw [hstep] at hk ⊢
    rw [hk.unique hnear, carry, if_pos rfl, sub_add_cancel]
  · obtain ⟨hstep, hnear⟩ :=
      h.isNearest hv fun hm hq => not_lt.mp fun hless => hpower ⟨⟨hm, hq⟩, hless⟩
    rw [hstep] at hk ⊢
    rw [hk.unique hnear, carry, if_neg h.double.lt.ne]

/-- A rational rounds to the multiple of its step that it is nearest to, behind the carry. -/
lemma rounds_of_carry_eq (hv : 0 < v) (hk : IsNearest (v / 2 ^ stepExponent v) k)
    (hcarry : carry k (stepExponent v) = (m, q)) (hmax : q ≤ maxExponent) : Rounds v m q := by
  obtain ⟨hmin, hbelow, hreached⟩ := (stepExponent_eq_iff hv).mp rfl
  generalize stepExponent v = g at *
  have hpos := two_zpow_pos g
  obtain ⟨⟨hlow, hhigh⟩, hodd⟩ := (isNearest_div_iff hpos).mp hk
  unfold carry at hcarry
  split_ifs at hcarry with htop
  · obtain ⟨rfl, rfl⟩ := Prod.mk.inj hcarry
    have hdouble : (2 : ℚ) ^ (g + 1) = 2 * 2 ^ g := by
      rw [add_comm, zpow_one_add₀ two_ne_zero]
    have hgap : gapBelow (2 ^ 52) (g + 1) = 2 ^ g := by
      rw [gapBelow, if_pos ⟨rfl, by omega⟩, hdouble]
      ring
    have hvalue : value (2 ^ 52) (g + 1) = 2 ^ 53 * 2 ^ g := by
      rw [value, hdouble]
      push_cast
      ring
    rw [htop] at hlow
    push_cast at hlow
    refine ⟨⟨by norm_num, by omega, hmax, Or.inl le_rfl⟩, ?_, ?_, fun h => absurd h (by decide)⟩
    · rw [hgap, hvalue]
      exact hlow
    · rw [hvalue, hdouble]
      linarith
  · obtain ⟨rfl, rfl⟩ := Prod.mk.inj hcarry
    have hle : k ≤ 2 ^ 53 := by
      refine le_of_mul_lt hpos ?_
      push_cast
      linarith
    have hnormal : 2 ^ 52 ≤ k ∨ g = minExponent := by
      refine hreached.imp_left fun h => le_of_mul_lt hpos ?_
      push_cast
      linarith
    have hlower : value k g - gapBelow k g / 2 ≤ v ∧
        (k % 2 = 1 → value k g - gapBelow k g / 2 < v) := by
      unfold gapBelow value
      split_ifs with hpower
      · obtain ⟨rfl, hg⟩ := hpower
        have hge := hreached.resolve_right hg.ne'
        push_cast
        exact ⟨by linarith, fun _ => by linarith⟩
      · exact ⟨hlow, fun h => (hodd h).1⟩
    exact ⟨⟨lt_of_le_of_ne hle htop, hmin, hmax, hnormal⟩, hlower.1, hhigh,
      fun h => ⟨hlower.2 h, (hodd h).2⟩⟩

end

lemma isDouble_zero : IsDouble 0 minExponent :=
  ⟨by decide, le_rfl, by decide, Or.inr rfl⟩

/-- Only zero is the rounded zero. -/
lemma rounds_zero_iff {m : ℕ} {q : ℤ} : Rounds 0 m q ↔ m = 0 ∧ q = minExponent := by
  constructor
  · intro h
    have hpos := two_zpow_pos q
    have hgap := gapBelow_le m q
    have hlower := h.lower
    rw [value] at hlower
    have hm : m ≤ 0 := by
      refine le_of_mul_lt hpos ?_
      push_cast
      linarith
    obtain rfl : m = 0 := by omega
    exact ⟨rfl, h.double.normal.resolve_left (by decide)⟩
  · rintro ⟨rfl, rfl⟩
    have hself := isDouble_zero.rounds
    rwa [value, Nat.cast_zero, zero_mul] at hself

/-- **The nearest double.**  `ofRatio` gives the double that the fraction rounds to. -/
theorem ofRatio_eq_finite_iff {b : Bool} {n d m : ℕ} {q : ℤ} (hd : 0 < d) :
    ofRatio b n d = .finite b m q ↔ Rounds ((n : ℚ) / d) m q := by
  by_cases hn : n = 0
  · subst hn
    rw [ofRatio_zero, zero, finite.injEq, Nat.cast_zero, zero_div, rounds_zero_iff,
      eq_comm (a := m), eq_comm (a := q)]
    simp
  · have hv : (0 : ℚ) < n / d := by positivity
    obtain ⟨k, hk, hpack⟩ := exists_ofRatio_eq_pack b hn hd
    rw [hpack, pack_eq_finite_iff]
    constructor
    · exact fun ⟨hcarry, hmax⟩ => rounds_of_carry_eq hv hk hcarry hmax
    · exact fun h => ⟨h.carry_eq hv hk, h.double.le_max⟩

/-- A rounded fraction keeps its sign. -/
lemma ofRatio_cases (negative : Bool) (n : ℕ) {d : ℕ} (hd : 0 < d) :
    ofRatio negative n d = .infinite negative ∨
      ∃ m q, ofRatio negative n d = .finite negative m q := by
  by_cases hn : n = 0
  · subst hn
    exact Or.inr ⟨_, _, rfl⟩
  · obtain ⟨k, -, hpack⟩ := exists_ofRatio_eq_pack negative hn hd
    rw [hpack, pack_eq]
    split_ifs
    · exact Or.inl rfl
    · exact Or.inr ⟨_, _, rfl⟩

/-- A finite result is a double. -/
lemma isDouble_of_ofRatio_eq {b b' : Bool} {n d m : ℕ} {q : ℤ} (hd : 0 < d)
    (h : ofRatio b n d = .finite b' m q) : IsDouble m q := by
  rcases ofRatio_cases b n hd with hinfinite | ⟨m', q', hfinite⟩
  · rw [hinfinite] at h
    cases h
  · rw [hfinite] at h
    obtain ⟨-, rfl, rfl⟩ := finite.inj h
    exact ((ofRatio_eq_finite_iff hd).mp hfinite).double

end Binary64

end AtomicStyle
