import AtomicStyle.Number.Binary64
import Mathlib.Algebra.Group.Nat.Defs
import Mathlib.Tactic.Lemma
import Mathlib.Tactic.SplitIfs

/-!
# The range of doubles

An integer has a nearest double unless it is too large.  The first integers that are lie half a unit
behind the largest double, where the tie goes to a significand that is out of range
(`ofInt?_eq_none_iff`).  A duration divides an integer by a thousand; the quotient of an integer that
is not too large is well within the range (`ofRatio_thousand_ne_infinite`).
-/

namespace AtomicStyle.Binary64

open Number

/-- A packed significand is infinite when its exponent, after the carry, is too large. -/
lemma pack_eq_infinite_iff {negative : Bool} {m : Nat} {q : Int} :
    (∃ b, pack negative m q = .infinite b) ↔
      maxExponent < if m = 2 ^ 53 then q + 1 else q := by
  have hpow : Nat.pow 2 53 = 2 ^ 53 := rfl
  unfold pack
  rw [hpow]
  split_ifs with hm <;> dsimp only <;> split_ifs with hq <;> simp [hq]

lemma ofInt?_eq_none {n : Int} :
    ofInt? n = none ↔ ∃ b, ofRatio (n < 0) n.natAbs 1 = .infinite b := by
  unfold ofInt?
  split
  case h_1 b hb => exact iff_of_true rfl ⟨b, hb⟩
  case h_2 hne => exact iff_of_false (Option.some_ne_none _) fun ⟨b, hb⟩ => hne b hb

/-- The order of a fraction is at most the difference of the orders. -/
lemma binaryOrder_le (n d : Nat) : binaryOrder n d ≤ (n.log2 : Int) - d.log2 := by
  unfold binaryOrder
  dsimp only
  split_ifs <;> omega

lemma binaryOrder_one {n : Nat} (hn : n ≠ 0) : binaryOrder n 1 = n.log2 := by
  have hle : 2 ^ n.log2 ≤ n := Nat.log2_self_le hn
  have hone : Nat.log2 1 = 0 := by decide
  unfold binaryOrder
  simp [hone, hle]

/-- The double nearest to a large integer, before it is packed. -/
lemma ofRatio_one {negative : Bool} {n : Nat} (hn : n ≠ 0) (hlarge : 52 ≤ n.log2) :
    ofRatio negative n 1 =
      pack negative (roundDiv n (2 ^ (n.log2 - 52))) ((n.log2 : Int) - 52) := by
  have hmax : max ((n.log2 : Int) - 52) minExponent = (n.log2 : Int) - 52 := by
    rw [minExponent]
    omega
  have hexponent : ((n.log2 : Int) - 52).toNat = n.log2 - 52 := by omega
  unfold ofRatio
  rw [if_neg hn, binaryOrder_one hn]
  dsimp only
  rw [hmax, if_pos (by omega), hexponent, Nat.one_mul]
  rfl

/-- A fraction of a small order has a finite double. -/
lemma ofRatio_ne_infinite {n d : Nat} (h : binaryOrder n d ≤ 1022) (negative b : Bool) :
    ofRatio negative n d ≠ .infinite b := by
  intro hinfinite
  unfold ofRatio at hinfinite
  split_ifs at hinfinite with hn
  · cases hinfinite
  · have hlarge := pack_eq_infinite_iff.mp ⟨b, hinfinite⟩
    rw [maxExponent, minExponent] at hlarge
    split_ifs at hlarge <;> omega

/-- Below `2^54` units of `u`, the quotient by `2 * u` is rounded to `2^53` from half a unit in front
of it on, because `2^53 - 1` is odd. -/
lemma roundDiv_eq_top_iff {n u : Nat} (hn : n < 2 ^ 54 * u) :
    roundDiv n (2 * u) = 2 ^ 53 ↔ (2 ^ 54 - 1) * u ≤ n := by
  have hu : 0 < 2 * u := by omega
  constructor
  · intro h
    have hnear := (roundDiv_near n hu).1
    rw [h] at hnear
    omega
  · intro h
    have hquotient : n / (2 * u) = 2 ^ 53 - 1 := by
      rw [Nat.div_eq_iff hu]
      omega
    have hremainder := Nat.div_add_mod n (2 * u)
    rw [hquotient] at hremainder
    have hhalf : ¬2 * (n % (2 * u)) < 2 * u := by omega
    unfold roundDiv
    dsimp only
    rw [hquotient, if_neg hhalf]
    split_ifs with hover heven
    · rfl
    · exact absurd heven (by decide)
    · rfl

/-- **The integers that are too large** begin half a unit behind the largest double. -/
theorem ofInt?_eq_none_iff {n : Int} : ofInt? n = none ↔ 2 ^ 1024 - 2 ^ 970 ≤ n.natAbs := by
  rw [ofInt?_eq_none]
  generalize decide (n < 0) = negative
  generalize n.natAbs = k
  -- large powers of two are compared in units of the half unit
  obtain ⟨u, hu, hpos⟩ : ∃ u, u = 2 ^ 970 ∧ 0 < u := ⟨_, rfl, Nat.two_pow_pos _⟩
  have h971 : 2 ^ (1023 - 52) = 2 * u := by rw [hu]; decide +kernel
  have h1023 : 2 ^ 1023 = 2 ^ 53 * u := by rw [hu]; decide +kernel
  have h1024 : 2 ^ 1024 = 2 ^ 54 * u := by rw [hu]; decide +kernel
  rw [h1024, ← hu]
  by_cases hk : k = 0
  · rw [hk]
    exact iff_of_false (fun ⟨b, hb⟩ => by cases hb) (by omega)
  have hbelow : ∀ e, k.log2 < e → k < 2 ^ e := fun e => (Nat.log2_lt hk).mp
  rcases Nat.lt_trichotomy k.log2 1023 with hlog | hlog | hlog
  · have hsmall := hbelow 1023 hlog
    rw [h1023] at hsmall
    refine iff_of_false (fun ⟨b, hb⟩ => ofRatio_ne_infinite ?_ negative b hb) (by omega)
    rw [binaryOrder_one hk]
    omega
  · have htop := roundDiv_eq_top_iff (h1024 ▸ hbelow 1024 (by omega))
    rw [ofRatio_one hk (by omega), pack_eq_infinite_iff, hlog, maxExponent, h971]
    split_ifs with hm <;> omega
  · have hlarge := (Nat.le_log2 hk).mp (Nat.succ_le_of_lt hlog)
    rw [ofRatio_one hk (by omega), pack_eq_infinite_iff, maxExponent]
    refine iff_of_true ?_ (by omega)
    split_ifs <;> omega

/-- The seconds of an integer of milliseconds that is not too large are in range. -/
theorem ofRatio_thousand_ne_infinite {n : Int} (h : ofInt? n ≠ none) (negative b : Bool) :
    ofRatio negative n.natAbs 1000 ≠ .infinite b := by
  refine ofRatio_ne_infinite ?_ negative b
  have horder := binaryOrder_le n.natAbs 1000
  have hthousand : Nat.log2 1000 = 9 := by decide
  have hlog : n.natAbs.log2 < 1024 := by
    refine Nat.not_le.mp fun hlog => ?_
    have hne : n.natAbs ≠ 0 := by
      intro hzero
      rw [hzero] at hlog
      exact absurd hlog (by decide)
    -- for any power, so that this one is not computed
    have hlarge : ∀ e ≤ n.natAbs.log2, ∀ c, 2 ^ e - c ≤ n.natAbs := fun e he c =>
      Nat.le_trans (Nat.sub_le _ c) ((Nat.le_log2 hne).mp he)
    have hbound := hlarge 1024 hlog (2 ^ 970)
    exact h (ofInt?_eq_none_iff.mpr hbound)
  omega

end AtomicStyle.Binary64
