import AtomicStyle.Proofs.Number.Shortest
import Mathlib.Data.Nat.Cast.Field

/-!
# Decimal places and units of time

A number of a style sheet keeps four decimal places.  Milliseconds are divided by a thousand before
that, and seconds that are read multiplied by a thousand, and each time the result is rounded to a
double.

**Places.**  A double near to a number of units of the last place has that number of units
(`unitsAtPlaces_of_near`).  From `2^39` on the doubles lie further apart than the units, so the four
places of a double round to it (`rounds_unitsAtPlaces`).

**Seconds.**  A double of milliseconds and its seconds are not exact multiples of each other.  Still
the seconds of the milliseconds of the seconds are the seconds (`Rounds.seconds_again`), because the
milliseconds that are read are the nearest to an exact multiple.  When the places are rounded in
between this holds for the units as long as three roundings move the value by less than half a unit
(`unitsAtPlaces_seconds_again`).
-/

namespace AtomicStyle.Binary64

open Number

/-! ## Exact results -/

section

variable {b : Bool} {m m' : ℕ} {q q' : ℤ}

lemma scale_eq_finite_iff {n d : ℕ} (hd : 0 < d) :
    (finite b m q).scale n d = .finite b m' q' ↔
      Rounds (value m q * n / d) m' q' := by
  have hdyadic := dyadic_pos m q
  rw [scale]
  dsimp only
  rw [ofRatio_eq_finite_iff (Nat.mul_pos hdyadic hd), ← dyadic_eq, Nat.cast_mul, Nat.cast_mul,
    div_mul_eq_mul_div, div_div]

lemma isNearest_unitsAtPlaces (m : ℕ) (q : ℤ) (places : ℕ) :
    IsNearest (value m q * 10 ^ places) (unitsAtPlaces m q places) := by
  have hnear := isNearest_roundDiv ((dyadic m q).1 * Nat.pow 10 places) (dyadic_pos m q)
  rwa [Nat.cast_mul, mul_div_right_comm, dyadic_eq, Nat.pow_eq, Nat.cast_pow,
    Nat.cast_ofNat] at hnear

lemma roundPlaces_eq_finite_iff {places : ℕ} :
    (finite b m q).roundPlaces places = .finite b m' q' ↔
      Rounds (unitsAtPlaces m q places / 10 ^ places) m' q' := by
  have hpos : 0 < Nat.pow 10 places := Nat.pow_pos (by decide)
  rw [roundPlaces, ofRatio_eq_finite_iff hpos, Nat.pow_eq, Nat.cast_pow, Nat.cast_ofNat]

lemma magnitudeAtLeast_finite_iff {k : ℕ} :
    (finite b m q).magnitudeAtLeast k = true ↔ (k : ℚ) ≤ value m q := by
  have hpos : (0 : ℚ) < (dyadic m q).2 := by exact_mod_cast dyadic_pos m q
  rw [magnitudeAtLeast, ← dyadic_eq, le_div_iff₀ hpos]
  dsimp only
  rw [decide_eq_true_eq]
  norm_cast

lemma isZero_finite_iff :
    (finite b m q).isZero = true ↔ m = 0 :=
  beq_iff_eq

/-- A double is whole, or its exponent is negative. -/
lemma toInt?_cases (negative : Bool) (m : ℕ) (q : ℤ) :
    (∃ k : ℕ, value m q = k ∧
        (finite negative m q).toInt? = some (if negative then -(k : ℤ) else k)) ∨
      q < 0 ∧ (finite negative m q).toInt? = none := by
  have hpos := dyadic_pos m q
  have hvalue := dyadic_eq m q
  by_cases hwhole : (dyadic m q).1 % (dyadic m q).2 = 0
  · left
    refine ⟨(dyadic m q).1 / (dyadic m q).2, ?_, if_pos hwhole⟩
    rw [← hvalue, Nat.cast_div (Nat.dvd_of_mod_eq_zero hwhole) (by exact_mod_cast hpos.ne')]
  · refine Or.inr ⟨not_le.mp fun hq => hwhole ?_, if_neg hwhole⟩
    rw [dyadic, if_pos hq]
    exact Nat.mod_one _

end

/-! ## Four places -/

section

variable {m u : ℕ} {q : ℤ}

/-- The four places of a double are within half a unit of it. -/
lemma unitsAtPlaces_near (m : ℕ) (q : ℤ) :
    |value m q - unitsAtPlaces m q 4 / 10 ^ 4| ≤ 1 / (2 * 10 ^ 4) := by
  obtain ⟨hlow, hhigh⟩ := abs_le.mp (isNearest_unitsAtPlaces m q 4).near
  refine abs_le.mpr ⟨?_, ?_⟩ <;> linarith

/-- A number of units within less than half a unit is the number of units. -/
lemma unitsAtPlaces_of_near (h : |value m q - u / 10 ^ 4| < 1 / (2 * 10 ^ 4)) :
    unitsAtPlaces m q 4 = u := by
  refine (isNearest_unitsAtPlaces m q 4).unique ?_
  obtain ⟨hlow, hhigh⟩ := abs_lt.mp h
  have hless : |value m q * 10 ^ 4 - u| < 1 / 2 := abs_lt.mpr ⟨by linarith, by linarith⟩
  exact ⟨hless.le, fun _ => hless⟩

/-- The four places of a whole number are zeros. -/
lemma unitsAtPlaces_of_natCast {k : ℕ} (h : value m q = k) :
    (unitsAtPlaces m q 4 : ℚ) / 10 ^ 4 = value m q := by
  have hexact : ((k * 10 ^ 4 : ℕ) : ℚ) / 10 ^ 4 = k := by
    push_cast
    ring
  have hunits : unitsAtPlaces m q 4 = k * 10 ^ 4 := by
    refine unitsAtPlaces_of_near ?_
    rw [hexact, h, sub_self, abs_zero]
    norm_num
  rw [hunits, hexact, h]

/-- From `2^39` on, the four places of a double round to it. -/
lemma rounds_unitsAtPlaces (h : IsDouble m q) (hlarge : 2 ^ 39 ≤ value m q) :
    Rounds (unitsAtPlaces m q 4 / 10 ^ 4) m q := by
  have hstep : -13 ≤ q := by
    have hlt := h.value_lt
    have hpow : (2 : ℚ) ^ (39 : ℤ) < 2 ^ ((53 : ℕ) + q) := by
      rw [two_zpow_add]
      exact lt_of_le_of_lt (by exact_mod_cast hlarge) hlt
    have := (zpow_lt_zpow_iff_right₀ one_lt_two).mp hpow
    omega
  by_cases hm : m = 2 ^ 52
  · -- a power of two, and a whole number
    have hwhole := zpow_of_nonneg 2 (show 0 ≤ (52 : ℕ) + q by omega)
    rw [Nat.cast_ofNat, two_zpow_add] at hwhole
    have hself := h.rounds
    rwa [← unitsAtPlaces_of_natCast (by rw [← hwhole, hm, value, Nat.cast_pow, Nat.cast_ofNat])]
      at hself
  · have hgap : (2 : ℚ) ^ (-13 : ℤ) ≤ 2 ^ q := zpow_le_zpow_right₀ one_le_two hstep
    have hnear := unitsAtPlaces_near m q
    rw [abs_sub_comm] at hnear
    norm_num at hgap hnear
    exact h.rounds_of_lt hm (by linarith)

/-- A double up to `2^39` that rounds a number of units has that number of units. -/
lemma Rounds.unitsAtPlaces_eq (h : Rounds (u / 10 ^ 4) m q)
    (hsmall : (u : ℚ) / 10 ^ 4 ≤ 2 ^ 39) : unitsAtPlaces m q 4 = u := by
  have herror := h.error_le (j := 39) (by norm_num) (by exact_mod_cast hsmall)
  refine unitsAtPlaces_of_near (lt_of_le_of_lt herror ?_)
  norm_num

lemma rounds_unit : Rounds ((1 : ℕ) / (10000 : ℕ)) 7378697629483821 (-66) :=
  (ofRatio_eq_finite_iff (b := false) (by decide)).mp (by decide +kernel)

/-- No double that rounds a positive number of units is below the one that rounds a single unit. -/
lemma unit_le_value (h : Rounds ((u : ℚ) / 10 ^ 4) m q) (hu : 0 < u) :
    value 7378697629483821 (-66) ≤ value m q := by
  refine rounds_unit.mono (by norm_num) ?_ h
  have hcast : (1 : ℚ) ≤ u := by exact_mod_cast hu
  norm_num
  linarith

lemma value_pos (h : Rounds ((u : ℚ) / 10 ^ 4) m q) (hu : 0 < u) : 0 < value m q :=
  lt_of_lt_of_le (mul_pos (by norm_num) (two_zpow_pos _)) (unit_le_value h hu)

lemma pos_of_value_pos (h : 0 < value m q) : 0 < m := by
  refine Nat.pos_of_ne_zero fun hzero => ?_
  rw [hzero, value, Nat.cast_zero, zero_mul] at h
  exact lt_irrefl _ h

end

/-! ## Seconds -/

section

variable {m ms my mx mt : ℕ} {q qs qy qx qt : ℤ}

/-- **The seconds of the milliseconds of seconds.**  Seconds that were divided from milliseconds are
found again by multiplying and dividing: the product rounds to the double nearest to it, so it is as
near to it as the milliseconds were. -/
theorem Rounds.seconds_again (hdouble : IsDouble m q) (hs : Rounds (value m q / 1000) ms qs)
    (hx : Rounds (value ms qs * 1000) mx qx) : Rounds (value mx qx / 1000) ms qs := by
  by_cases hm : ms = 2 ^ 52
  · -- a thousand times a power of two is exact
    have hexact : IsRepresentable (value ms qs * 1000) := by
      have hmin := hs.double.min_le
      refine ⟨1000 * 2 ^ 43, (9 : ℕ) + qs, by norm_num, by omega, ?_⟩
      rw [hm, value, value, two_zpow_add]
      push_cast
      ring
    rw [hx.value_eq hexact, mul_div_assoc, div_self (by norm_num), mul_one]
    exact hs.double.rounds
  · have hthousand : ∀ a b : ℚ, |a / 1000 - b| = |a - b * 1000| / 1000 := by
      intro a b
      rw [div_sub' (by norm_num), abs_div, abs_of_pos (show (0 : ℚ) < 1000 by norm_num), mul_comm]
    refine hs.of_near hm ?_
    rw [hthousand, hthousand]
    exact div_le_div_of_nonneg_right (hx.nearest hdouble.isRepresentable) (by norm_num)

/-- A whole number of units does not exceed what its rounded value does not exceed. -/
lemma unitsAtPlaces_le {k : ℕ} (h : value ms qs ≤ k) :
    (unitsAtPlaces ms qs 4 : ℚ) / 10 ^ 4 ≤ k := by
  have hnear := (abs_le.mp (unitsAtPlaces_near ms qs)).1
  have hle : unitsAtPlaces ms qs 4 ≤ k * 10 ^ 4 := by
    refine Nat.le_of_lt_succ ?_
    have hlt : (unitsAtPlaces ms qs 4 : ℚ) < (k * 10 ^ 4 : ℕ) + 1 := by
      push_cast
      linarith
    exact_mod_cast hlt
  rw [div_le_iff₀ (by norm_num)]
  exact_mod_cast hle

/-- **The units of the seconds of the milliseconds of rounded seconds.**  Up to `2^38` seconds the
three roundings move them by less than half a unit. -/
theorem unitsAtPlaces_seconds_again (hsmall : value ms qs ≤ 2 ^ 38)
    (hy : Rounds (unitsAtPlaces ms qs 4 / 10 ^ 4) my qy) (hx : Rounds (value my qy * 1000) mx qx)
    (ht : Rounds (value mx qx / 1000) mt qt) :
    unitsAtPlaces mt qt 4 = unitsAtPlaces ms qs 4 := by
  have hunits : (unitsAtPlaces ms qs 4 : ℚ) / 10 ^ 4 ≤ 2 ^ (38 : ℤ) := by
    have hle := unitsAtPlaces_le (k := 2 ^ 38) (by exact_mod_cast hsmall)
    exact_mod_cast hle
  have hseconds : value my qy ≤ 2 ^ (38 : ℤ) :=
    hy.le_of_le (isRepresentable_two_zpow (by decide)) hunits
  have hmilliseconds : value mx qx ≤ 1000 * 2 ^ (38 : ℤ) :=
    hx.le_of_le ⟨1000, 38, by norm_num, by decide, by rw [value, Nat.cast_ofNat]⟩ (by linarith)
  have herror := hy.error_le (j := 38) (by norm_num) hunits
  have herror' := hx.error_le (j := 48) (by norm_num) (by norm_num at hseconds ⊢; linarith)
  have herror'' := ht.error_le (j := 38) (by norm_num) (by linarith)
  refine unitsAtPlaces_of_near ?_
  rw [abs_le] at herror herror' herror''
  norm_num at herror herror' herror'' ⊢
  refine abs_lt.mpr ⟨?_, ?_⟩ <;> linarith

/-- Seconds that are written are found again, unless they are between `2^38` and `2^39`. -/
theorem Rounds.places_again (hdouble : IsDouble m q) (hs : Rounds (value m q / 1000) ms qs)
    (hy : Rounds (unitsAtPlaces ms qs 4 / 10 ^ 4) my qy) (hx : Rounds (value my qy * 1000) mx qx)
    (ht : Rounds (value mx qx / 1000) mt qt)
    (hband : value m q ≤ 1000 * 2 ^ 38 ∨ 1000 * 2 ^ 39 ≤ value m q) :
    Rounds (unitsAtPlaces mt qt 4 / 10 ^ 4) my qy := by
  rcases hband with hsmall | hlarge
  · have hle : value ms qs ≤ 2 ^ (38 : ℤ) :=
      hs.le_of_le (isRepresentable_two_zpow (by decide)) (by norm_num at hsmall ⊢; linarith)
    rwa [unitsAtPlaces_seconds_again (by exact_mod_cast hle) hy hx ht]
  · have hge : 2 ^ (39 : ℤ) ≤ value ms qs :=
      hs.ge_of_ge (isRepresentable_two_zpow (by decide)) (by norm_num at hlarge ⊢; linarith)
    obtain ⟨rfl, rfl⟩ := hy.unique (by positivity)
      (rounds_unitsAtPlaces hs.double (by exact_mod_cast hge))
    have hsame := hs.seconds_again hdouble hx
    obtain ⟨rfl, rfl⟩ := ht.unique (div_nonneg (value_nonneg mx qx) (by norm_num)) hsame
    exact hy

/-! ## Sizes -/

lemma IsDouble.value_le (h : IsDouble m q) : value m q ≤ value (2 ^ 53 - 1) maxExponent := by
  have hm : (m : ℚ) ≤ (2 ^ 53 - 1 : ℕ) := by exact_mod_cast Nat.le_sub_one_of_lt h.lt
  exact mul_le_mul hm (zpow_le_zpow_right₀ one_le_two h.le_max) (two_zpow_pos q).le
    (Nat.cast_nonneg _)

/-- Ten milliseconds and more are a hundredth of a second and more in four places. -/
lemma hundredth_le (hlarge : 10 ≤ value m q) (hs : Rounds (value m q / 1000) ms qs)
    (hy : Rounds (unitsAtPlaces ms qs 4 / 10 ^ 4) my qy) : 1 / 100 ≤ value my qy := by
  have hseconds : value 655 (-16) ≤ value ms qs := by
    refine hs.ge_of_ge ⟨655, -16, by norm_num, by decide, rfl⟩ ?_
    rw [value]
    norm_num
    linarith
  have hunits : 100 ≤ unitsAtPlaces ms qs 4 := by
    have hnear := (abs_le.mp (unitsAtPlaces_near ms qs)).2
    rw [value] at hseconds
    norm_num at hseconds hnear
    have hlt : (99 : ℚ) < unitsAtPlaces ms qs 4 := by linarith
    exact_mod_cast hlt
  have hhundredth : Rounds ((1 : ℕ) / (100 : ℕ)) 5764607523034235 (-59) :=
    (ofRatio_eq_finite_iff (b := false) (by decide)).mp (by decide +kernel)
  have hle : ((1 : ℕ) : ℚ) / (100 : ℕ) ≤ unitsAtPlaces ms qs 4 / 10 ^ 4 := by
    have hcast : (100 : ℚ) ≤ unitsAtPlaces ms qs 4 := by exact_mod_cast hunits
    norm_num
    linarith
  refine le_trans ?_ (hhundredth.mono (by norm_num) hle hy)
  rw [value]
  norm_num

lemma value_largest :
    value (2 ^ 53 - 1) maxExponent = 4611686018427387392 * 2 ^ (962 : ℤ) := by
  have hexponent : maxExponent = (9 : ℕ) + 962 := rfl
  rw [value, hexponent, two_zpow_add, ← mul_assoc]
  norm_num

lemma le_value_largest {v : ℚ} (h : v ≤ 1000 * 2 ^ 39) : v ≤ value (2 ^ 53 - 1) maxExponent := by
  have hpow : (1 : ℚ) ≤ 2 ^ (962 : ℤ) := one_le_zpow₀ one_le_two (by decide)
  rw [value_largest]
  generalize (2 : ℚ) ^ (962 : ℤ) = t at *
  linarith

/-- The thousandth part of the largest double is rounded down. -/
lemma rounds_largest_seconds :
    Rounds (value (2 ^ 53 - 1) maxExponent / 1000) 4611686018427387 962 := by
  have hpos := two_zpow_pos 962
  have hdouble : IsDouble 4611686018427387 962 :=
    ⟨by norm_num, by decide, by decide, Or.inl (by norm_num)⟩
  refine hdouble.rounds_of_lt (by norm_num) ?_
  rw [value_largest, value]
  generalize (2 : ℚ) ^ (962 : ℤ) = t at *
  push_cast
  refine abs_lt.mpr ⟨?_, ?_⟩ <;> linarith

/-- The milliseconds of written seconds are in range. -/
lemma exists_rounds_milliseconds (hdouble : IsDouble m q) (hs : Rounds (value m q / 1000) ms qs)
    (hy : Rounds (unitsAtPlaces ms qs 4 / 10 ^ 4) my qy) :
    ∃ mx qx, Rounds (value my qy * 1000) mx qx := by
  refine exists_rounds (mul_nonneg (value_nonneg my qy) (by norm_num)) ?_
  rcases le_total (value ms qs) (2 ^ 39) with hsmall | hlarge
  · have hunits := unitsAtPlaces_le (k := 2 ^ 39) (by exact_mod_cast hsmall)
    have hseconds : value my qy ≤ 2 ^ (39 : ℤ) :=
      hy.le_of_le (isRepresentable_two_zpow (by decide)) (by exact_mod_cast hunits)
    refine le_value_largest ?_
    norm_num at hseconds ⊢
    linarith
  · obtain ⟨rfl, rfl⟩ := hy.unique (by positivity) (rounds_unitsAtPlaces hs.double hlarge)
    have hpos := two_zpow_pos 962
    have hle := hs.mono (div_nonneg (value_nonneg m q) (by norm_num))
      (div_le_div_of_nonneg_right hdouble.value_le (by norm_num)) rounds_largest_seconds
    rw [value_largest]
    generalize value my qy = y at *
    rw [value] at hle
    generalize (2 : ℚ) ^ (962 : ℤ) = t at *
    push_cast at hle
    linarith

/-- The four places of a double are in range. -/
lemma exists_rounds_places (h : IsDouble m q) :
    ∃ my qy, Rounds (unitsAtPlaces m q 4 / 10 ^ 4) my qy := by
  rcases le_total (value m q) (2 ^ 39) with hsmall | hlarge
  · have hunits := unitsAtPlaces_le (k := 2 ^ 39) (by exact_mod_cast hsmall)
    refine exists_rounds (div_nonneg (Nat.cast_nonneg _) (by norm_num)) (le_value_largest ?_)
    norm_num at hunits ⊢
    linarith
  · exact ⟨m, q, rounds_unitsAtPlaces h hlarge⟩

/-- The seconds of a double of milliseconds are in range. -/
lemma exists_rounds_seconds (h : IsDouble m q) : ∃ ms qs, Rounds (value m q / 1000) ms qs := by
  have hnonneg := value_nonneg m q
  exact exists_rounds (div_nonneg hnonneg (by norm_num))
    ((div_le_self hnonneg (by norm_num)).trans h.value_le)

end

end AtomicStyle.Binary64
