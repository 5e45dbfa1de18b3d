import AtomicStyle.Rule.Murmur
import Mathlib.Data.Nat.Bitwise
import Mathlib.Tactic.Lemma
import Mathlib.Tactic.SplitIfs

/-!
# What the digest tells apart

A digest of 32 bits cannot tell all sequences of bytes apart.  It does tell those apart that have one
length and differ in one of their words only, be it a block of four bytes or what remains behind the
last block.

**Steps.**  Each step of the digest can be undone: multiplication, because the multiplier is odd and
so has an inverse, and mixing a word with its own upper bits, because these are reached again from
the top (`xor_shiftRight_injective`).

**Words.**  So a block that differs gives a state that differs (`absorbWord_injective_right`), and
states that differ are still different behind all the bytes that follow (`absorb_injective`).  What
remains behind the last block counts as one word more, filled up with zeros (`absorb_of_short`).
-/

namespace AtomicStyle.Murmur

/-! ## Steps -/

/-- The multiplier has an inverse among the words. -/
lemma mul_multiplier_injective : Function.Injective (· * multiplier) := by
  have hinverse : multiplier * 0xe59b19bd = 1 := by decide
  have hundo : Function.LeftInverse (· * (0xe59b19bd : UInt32)) (· * multiplier) := by
    intro k
    dsimp only
    rw [UInt32.mul_assoc, hinverse, UInt32.mul_one]
  exact hundo.injective

/-- A number is told from its exclusive or with its own upper part.  The upper part is a smaller
number in the same position, so the induction is on the number. -/
theorem xor_shiftRight_injective {s : Nat} (hs : 0 < s) :
    Function.Injective fun n : Nat => n ^^^ (n >>> s) := by
  have hlt : ∀ {n : Nat}, n ≠ 0 → n >>> s < n := by
    intro n hn
    rw [Nat.shiftRight_eq_div_pow]
    exact Nat.div_lt_self (by omega) (Nat.one_lt_two_pow (by omega))
  intro m n h
  dsimp only at h
  induction m using Nat.strongRecOn generalizing n with
  | ind m ih =>
      by_cases hm : m = 0
      · subst hm
        by_contra hn
        have hself : n ^^^ (n >>> s) = 0 := by rw [← h, Nat.zero_shiftRight, Nat.xor_self]
        have hn := hlt (Ne.symm hn)
        rw [← Nat.xor_eq_zero_iff.mp hself] at hn
        exact absurd hn (Nat.lt_irrefl n)
      · have hupper : (m >>> s) ^^^ (m >>> s >>> s) = (n >>> s) ^^^ (n >>> s >>> s) := by
          rw [← Nat.shiftRight_xor_distrib, ← Nat.shiftRight_xor_distrib, h]
        rw [ih (m >>> s) (hlt hm) hupper] at h
        exact Nat.xor_left_injective h

lemma xorShift_injective {t : UInt32} (hpos : 0 < t.toNat) (hlt : t.toNat < 32) :
    Function.Injective fun k : UInt32 => k ^^^ (k >>> t) := by
  intro k l h
  have hnat := congrArg UInt32.toNat h
  rw [toNat_xorShift k rfl hlt, toNat_xorShift l rfl hlt] at hnat
  exact UInt32.toNat_inj.mp (xor_shiftRight_injective hpos hnat)

lemma mixWord_injective : Function.Injective mixWord :=
  mul_multiplier_injective.comp
    ((xorShift_injective (t := 24) (by decide) (by decide)).comp mul_multiplier_injective)

lemma finish_injective : Function.Injective finish :=
  (xorShift_injective (t := 15) (by decide) (by decide)).comp
    (mul_multiplier_injective.comp (xorShift_injective (t := 13) (by decide) (by decide)))

/-! ## Words -/

/-- States that differ differ behind one block. -/
lemma absorbWord_injective_left (k : UInt32) : Function.Injective (absorbWord · k) := by
  intro h h' heq
  exact mul_multiplier_injective ((UInt32.xor_left_inj (mixWord k)).mp heq)

/-- Blocks that differ make states that differ. -/
lemma absorbWord_injective_right (h : UInt32) : Function.Injective (absorbWord h) := by
  intro k k' heq
  exact mixWord_injective ((UInt32.xor_right_inj (h * multiplier)).mp heq)

lemma word_eq_iff {a b c d a' b' c' d' : UInt8} :
    word a b c d = word a' b' c' d' ↔ a = a' ∧ b = b' ∧ c = c' ∧ d = d' := by
  have ha := a.toNat_lt
  have hb := b.toNat_lt
  have hc := c.toNat_lt
  have ha' := a'.toNat_lt
  have hb' := b'.toNat_lt
  have hc' := c'.toNat_lt
  simp only [← UInt32.toNat_inj, ← UInt8.toNat_inj, toNat_word]
  omega

/-- **States that differ are different behind all bytes that follow.** -/
theorem absorb_injective (bytes : List UInt8) : Function.Injective (absorb · bytes) := by
  intro h h' heq
  dsimp only at heq
  fun_induction absorb h bytes generalizing h' with
  | case1 h a b c d rest ih => exact absorbWord_injective_left _ (ih heq)
  | case2 h a b c =>
      have heq := mul_multiplier_injective heq
      simpa only [UInt32.xor_left_inj] using heq
  | case3 h a b =>
      have heq := mul_multiplier_injective heq
      simpa only [UInt32.xor_left_inj] using heq
  | case4 h a =>
      have heq := mul_multiplier_injective heq
      simpa only [UInt32.xor_left_inj] using heq
  | case5 h => exact heq

/-- A shifted number and a smaller one share no bit. -/
lemma shiftLeft_xor {x y s : Nat} (hy : y < 2 ^ s) : (x <<< s) ^^^ y = x * 2 ^ s + y := by
  rw [← Nat.shiftLeft_eq, Nat.shiftLeft_add_eq_or_of_lt hy]
  apply Nat.eq_of_testBit_eq
  intro i
  rw [Nat.testBit_xor, Nat.testBit_or, Nat.testBit_shiftLeft]
  by_cases hi : s ≤ i
  · have hbit : y.testBit i = false :=
      Nat.testBit_lt_two_pow (Nat.lt_of_lt_of_le hy (Nat.pow_le_pow_right (by decide) hi))
    simp [hbit]
  · simp [hi]

/-- The bytes of a tail make up a word of which the upper bytes are zero. -/
lemma tail_eq_word (h : UInt32) (a b c : UInt8) :
    h ^^^ (c.toUInt32 <<< 16) ^^^ (b.toUInt32 <<< 8) ^^^ a.toUInt32 = h ^^^ word a b c 0 := by
  have hlow : b.toNat * 2 ^ 8 + a.toNat < 2 ^ 16 := by
    have ha := a.toNat_lt
    have hb := b.toNat_lt
    omega
  rw [UInt32.xor_assoc, UInt32.xor_assoc, UInt32.xor_right_inj, ← UInt32.toNat_inj, toNat_word,
    UInt32.toNat_xor, UInt32.toNat_xor, toNat_byte_shiftLeft b (s := 8) rfl (by decide),
    toNat_byte_shiftLeft c (s := 16) rfl (by decide), UInt8.toNat_toUInt32,
    shiftLeft_xor a.toNat_lt, shiftLeft_xor hlow, UInt8.toNat_zero]
  omega

/-- Up to three bytes make one word more. -/
lemma absorb_of_short (h : UInt32) {rest : List UInt8} (hne : rest ≠ []) (hshort : rest.length < 4) :
    absorb h rest =
      (h ^^^ word (rest.getD 0 0) (rest.getD 1 0) (rest.getD 2 0) 0) * multiplier := by
  match rest, hne, hshort with
  | [a], _, _ => simpa [absorb] using congrArg (· * multiplier) (tail_eq_word h a 0 0)
  | [a, b], _, _ => simpa [absorb] using congrArg (· * multiplier) (tail_eq_word h a b 0)
  | [a, b, c], _, _ => exact congrArg (· * multiplier) (tail_eq_word h a b c)

/-- Up to three bytes that differ make states that differ. -/
lemma eq_of_absorb_eq_of_short {h : UInt32} {a b : List UInt8} (hshort : a.length < 4)
    (hlength : a.length = b.length) (heq : absorb h a = absorb h b) : a = b := by
  by_cases hempty : a = []
  · subst hempty
    exact (List.eq_nil_of_length_eq_zero hlength.symm).symm
  · have hempty' : b ≠ [] := fun hb => hempty (List.eq_nil_of_length_eq_zero (by simp [hlength, hb]))
    rw [absorb_of_short h hempty hshort, absorb_of_short h hempty' (hlength ▸ hshort)] at heq
    have hword := (UInt32.xor_right_inj h).mp (mul_multiplier_injective heq)
    obtain ⟨hzero, hone, htwo, -⟩ := word_eq_iff.mp hword
    apply List.ext_getElem hlength
    intro i hi hi'
    rw [← List.getD_eq_getElem a 0 hi, ← List.getD_eq_getElem b 0 hi']
    have hcases : i = 0 ∨ i = 1 ∨ i = 2 := by omega
    obtain rfl | rfl | rfl := hcases
    · exact hzero
    · exact hone
    · exact htwo

/-! ## Digests -/

/-- Two sequences of bytes agree outside the word with a number: at each place that is not in it.
The word is a block of four bytes or, behind the last block, what remains. -/
def AgreeOutside (q : Nat) (a b : List UInt8) : Prop :=
  ∀ i, i / 4 ≠ q → a[i]? = b[i]?

/-- They agree in front of the word and behind it. -/
lemma agreeOutside_iff {q : Nat} {a b : List UInt8} :
    AgreeOutside q a b ↔
      a.take (4 * q) = b.take (4 * q) ∧ a.drop (4 * (q + 1)) = b.drop (4 * (q + 1)) := by
  constructor
  · intro h
    refine ⟨List.ext_getElem? fun i => ?_, List.ext_getElem? fun i => ?_⟩
    · rw [List.getElem?_take, List.getElem?_take]
      split_ifs with hi
      · exact h i (by omega)
      · rfl
    · rw [List.getElem?_drop, List.getElem?_drop]
      exact h _ (by omega)
  · rintro ⟨hfront, hbehind⟩ i hi
    rcases Nat.lt_or_ge i (4 * q) with hlt | hge
    · rw [← List.getElem?_take_of_lt hlt, hfront, List.getElem?_take_of_lt hlt]
    · obtain ⟨j, rfl⟩ := Nat.exists_eq_add_of_le (show 4 * (q + 1) ≤ i by omega)
      rw [← List.getElem?_drop, hbehind, List.getElem?_drop]

instance (q : Nat) (a b : List UInt8) : Decidable (AgreeOutside q a b) :=
  decidable_of_iff _ agreeOutside_iff.symm

/-- **One word that differs makes states that differ.**  The blocks in front of it lead to one state,
and the bytes behind it keep states apart. -/
theorem eq_of_absorb_eq {q : Nat} {h : UInt32} {a b : List UInt8} (hlength : a.length = b.length)
    (hagree : AgreeOutside q a b) (heq : absorb h a = absorb h b) : a = b := by
  fun_induction absorb h a generalizing b q with
  | case1 h x y z w rest ih =>
      match b, hlength with
      | x' :: y' :: z' :: w' :: rest', hlength =>
        cases q with
        | zero =>
            obtain rfl : rest = rest' := (agreeOutside_iff.mp hagree).2
            have hblock := absorbWord_injective_right h (absorb_injective rest heq)
            obtain ⟨rfl, rfl, rfl, rfl⟩ := word_eq_iff.mp hblock
            rfl
        | succ q =>
            obtain ⟨hfront, hbehind⟩ := agreeOutside_iff.mp hagree
            simp only [Nat.mul_add, Nat.mul_one, List.take_succ_cons, List.drop_succ_cons,
              List.cons.injEq] at hfront hbehind
            obtain ⟨rfl, rfl, rfl, rfl, hfront⟩ := hfront
            have hagree := agreeOutside_iff.mpr ⟨hfront, hbehind⟩
            have hrest := ih (by simpa using hlength) hagree heq
            rw [hrest]
  | case2 h x y z => exact eq_of_absorb_eq_of_short (by simp) hlength heq
  | case3 h x y => exact eq_of_absorb_eq_of_short (by simp) hlength heq
  | case4 h x => exact eq_of_absorb_eq_of_short (by simp) hlength heq
  | case5 h => exact eq_of_absorb_eq_of_short (by simp) hlength heq

/-- **Bytes that differ inside one word have different digests.**  Under any seed, and for a word
anywhere in them: a block, or what remains behind the last block. -/
theorem murmur_ne_of_agreeOutside (seed : Int) {q : Nat} {a b : List UInt8}
    (hlength : a.length = b.length) (hne : a ≠ b) (hagree : AgreeOutside q a b) :
    murmur seed a ≠ murmur seed b := by
  intro heq
  have habsorb := finish_injective heq
  rw [← hlength] at habsorb
  exact hne (eq_of_absorb_eq hlength hagree habsorb)

/-- Nine bytes that differ in their second block, and nine that differ in the byte behind it. -/
theorem murmur_ne_in_block_and_in_tail :
    (AgreeOutside 1 [1, 2, 3, 4, 5, 6, 7, 8, 9] [1, 2, 3, 4, 0x85, 6, 0xff, 8, 9] ∧
      murmur (-7) [1, 2, 3, 4, 5, 6, 7, 8, 9] ≠ murmur (-7) [1, 2, 3, 4, 0x85, 6, 0xff, 8, 9]) ∧
    AgreeOutside 2 [1, 2, 3, 4, 5, 6, 7, 8, 9] [1, 2, 3, 4, 5, 6, 7, 8, 0x89] ∧
      murmur (2 ^ 32) [1, 2, 3, 4, 5, 6, 7, 8, 9] ≠
        murmur (2 ^ 32) [1, 2, 3, 4, 5, 6, 7, 8, 0x89] :=
  have hblock : AgreeOutside 1 [1, 2, 3, 4, 5, 6, 7, 8, 9] [1, 2, 3, 4, 0x85, 6, 0xff, 8, 9] := by
    decide
  have htail : AgreeOutside 2 [1, 2, 3, 4, 5, 6, 7, 8, 9] [1, 2, 3, 4, 5, 6, 7, 8, 0x89] := by
    decide
  ⟨⟨hblock, murmur_ne_of_agreeOutside (-7) (by decide) (by decide) hblock⟩,
    htail, murmur_ne_of_agreeOutside (2 ^ 32) (by decide) (by decide) htail⟩

end AtomicStyle.Murmur
