import AtomicStyle.Rule.Murmur
import Mathlib.Data.Int.Bitwise
import Mathlib.Tactic.Lemma

/-!
# The digest over unbounded integers

The digest is defined over words of 32 bits.  Where integers have no bounds it is taken by a loop
that walks through the bytes by an index, and that cuts a number down to its last 32 bits behind each
multiplication and nowhere else.  This file shows that the loop arrives at the digest of words.

**Cuts.**  Exclusive or and shifting to the right make no number longer than a word out of words.
So a product that is cut is the product of words (`low_mul_factor`), and no other step needs a cut.

**Blocks.**  The loop holds an index into all bytes, the digest the bytes that remain.
`absorb_toNat` is their invariant: what is in front of the index has been taken in.

**The start.**  The seed may be any integer, and a negative one has ones without end in front.  Only
the last 32 bits of its exclusive or with the number of bytes count (`toNat_land`, `toNat_xor`).
-/

namespace AtomicStyle.Murmur

/-! ## The loop -/

namespace Unbounded

/-- The last 32 bits of a number. -/
def low (n : Nat) : Nat :=
  n &&& 0xFFFFFFFF

/-- The multiplier as a number. -/
def factor : Nat := 0x5bd1e995

/-- The number that bytes make up, the first of them the least significant. -/
def littleEndian : List UInt8 → Nat
  | [] => 0
  | b :: bs => b.toNat + 256 * littleEndian bs

/-- The mixing of a block before it meets the state. -/
def mixBlock (k : Nat) : Nat :=
  let k := low (k * factor)
  let k := k ^^^ (k >>> 24)
  low (k * factor)

/-- The state after the bytes from an index on, of which there are fewer than four. -/
def tail (data : List UInt8) (index h : Nat) : Nat :=
  let remaining := data.length - index
  let h := if remaining = 3 then h ^^^ ((data.getD (index + 2) 0).toNat <<< 16) else h
  let h := if 2 ≤ remaining then h ^^^ ((data.getD (index + 1) 0).toNat <<< 8) else h
  if 1 ≤ remaining then low ((h ^^^ (data.getD index 0).toNat) * factor) else h

/-- The state after the bytes from an index on. -/
def absorb (data : List UInt8) (index h : Nat) : Nat :=
  if 4 ≤ data.length - index then
    absorb data (index + 4)
      (low (h * factor) ^^^ mixBlock (littleEndian ((data.drop index).take 4)))
  else tail data index h
termination_by data.length - index

/-- The last mixing of the state. -/
def finish (h : Nat) : Nat :=
  let h := h ^^^ (h >>> 13)
  let h := low (h * factor)
  h ^^^ (h >>> 15)

/-- The state in front of the bytes: the last 32 bits of the seed combined with their number. -/
def start (seed : Int) (length : Nat) : Nat :=
  ((seed.xor length).land 0xFFFFFFFF).toNat

/-- The digest of the bytes under a seed. -/
def murmur (seed : Int) (data : List UInt8) : Nat :=
  finish (absorb data 0 (start seed data.length))

/-! ## Cuts -/

lemma low_mul_factor (h : UInt32) : low (h.toNat * factor) = (h * multiplier).toNat := by
  have hlow : ∀ n, low n = n % 2 ^ 32 := fun n => Nat.and_two_pow_sub_one_eq_mod n 32
  have hfactor : factor = multiplier.toNat := by decide
  rw [UInt32.toNat_mul, hlow, hfactor]

lemma mixBlock_toNat (k : UInt32) : mixBlock k.toNat = (mixWord k).toNat := by
  have hshift := toNat_xorShift (k * multiplier) (t := 24) (s := 24) rfl (by decide)
  rw [mixBlock, mixWord, low_mul_factor, ← hshift, low_mul_factor]

lemma finish_toNat (h : UInt32) : finish h.toNat = (Murmur.finish h).toNat := by
  have hfirst := toNat_xorShift h (t := 13) (s := 13) rfl (by decide)
  have hlast := toNat_xorShift ((h ^^^ (h >>> 13)) * multiplier) (t := 15) (s := 15) rfl (by decide)
  rw [finish, Murmur.finish, ← hfirst, low_mul_factor, ← hlast]

/-! ## Blocks -/

/-- Up to three bytes that remain are taken in alike. -/
lemma tail_toNat (h : UInt32) (front : List UInt8) {rest : List UInt8} (hrest : rest.length < 4) :
    tail (front ++ rest) front.length h.toNat = (Murmur.absorb h rest).toNat := by
  have hsecond : ∀ b : UInt8, (b.toUInt32 <<< 8).toNat = b.toNat <<< 8 :=
    fun b => toNat_byte_shiftLeft b rfl (by decide)
  have hthird : ∀ c : UInt8, (c.toUInt32 <<< 16).toNat = c.toNat <<< 16 :=
    fun c => toNat_byte_shiftLeft c rfl (by decide)
  match rest, hrest with
  | [], _ => simp [tail, Murmur.absorb]
  | [a], _ =>
      rw [Murmur.absorb, ← low_mul_factor, UInt32.toNat_xor, UInt8.toNat_toUInt32]
      simp [tail]
  | [a, b], _ =>
      rw [Murmur.absorb, ← low_mul_factor, UInt32.toNat_xor, UInt32.toNat_xor, hsecond,
        UInt8.toNat_toUInt32]
      simp [tail]
  | [a, b, c], _ =>
      rw [Murmur.absorb, ← low_mul_factor, UInt32.toNat_xor, UInt32.toNat_xor, UInt32.toNat_xor,
        hsecond, hthird, UInt8.toNat_toUInt32]
      simp [tail]

/-- **From any index on, the loop and the digest take in the same.** -/
theorem absorb_toNat (h : UInt32) (front rest : List UInt8) :
    absorb (front ++ rest) front.length h.toNat = (Murmur.absorb h rest).toNat := by
  have hshort : ∀ (h : UInt32) (front : List UInt8) {rest : List UInt8}, rest.length < 4 →
      absorb (front ++ rest) front.length h.toNat = (Murmur.absorb h rest).toNat := by
    intro h front rest hrest
    rw [absorb, if_neg (by simp; omega), tail_toNat h front hrest]
  fun_induction Murmur.absorb h rest generalizing front with
  | case1 h a b c d rest ih =>
      have hfour : 4 ≤ (front ++ a :: b :: c :: d :: rest).length - front.length := by simp
      have hblock : littleEndian (((front ++ a :: b :: c :: d :: rest).drop front.length).take 4) =
          (word a b c d).toNat := by
        rw [toNat_word]
        simp [littleEndian]
      have hindex : front.length + 4 = (front ++ [a, b, c, d]).length := by simp
      have hdata : front ++ a :: b :: c :: d :: rest = (front ++ [a, b, c, d]) ++ rest := by simp
      rw [absorb, if_pos hfour, hblock, mixBlock_toNat, low_mul_factor, ← UInt32.toNat_xor, hindex,
        hdata]
      exact ih (front ++ [a, b, c, d])
  | case2 h a b c => exact hshort h front (by simp)
  | case3 h a b => exact hshort h front (by simp)
  | case4 h a => exact hshort h front (by simp)
  | case5 h => exact hshort h front (by simp)

/-! ## The start -/

/-- The last bits of an integer are its bits, also of a negative one. -/
lemma testBit_toNat_emod (n : Int) (k i : Nat) :
    (n % 2 ^ k).toNat.testBit i = (decide (i < k) && n.testBit i) := by
  cases n with
  | ofNat m =>
      have hmod : ((m : Int) % 2 ^ k).toNat = m % 2 ^ k := by
        rw [← Int.toNat_natCast (m % 2 ^ k)]
        norm_cast
      exact (congrArg (Nat.testBit · i) hmod).trans (Nat.testBit_mod_two_pow m k i)
  | negSucc m =>
      have hlt : m % 2 ^ k < 2 ^ k := Nat.mod_lt m (Nat.two_pow_pos k)
      have hmod : (Int.negSucc m % 2 ^ k).toNat = 2 ^ k - (m % 2 ^ k + 1) := by
        have hcast : (2 : Int) ^ k = (2 ^ k : Nat) := by norm_cast
        rw [hcast, Int.negSucc_emod _ (by omega)]
        omega
      rw [hmod, Nat.testBit_two_pow_sub_succ hlt, Nat.testBit_mod_two_pow]
      cases decide (i < k) <;> rfl

/-- A mask of 32 ones takes the remainder, also of a negative integer. -/
lemma toNat_land (n : Int) : (n.land 0xFFFFFFFF).toNat = (n % 2 ^ 32).toNat := by
  apply Nat.eq_of_testBit_eq
  intro i
  have hland : (n.land 0xFFFFFFFF).toNat.testBit i = (n.land 0xFFFFFFFF).testBit i := by
    cases n <;> rfl
  have hmask : Int.testBit 0xFFFFFFFF i = decide (i < 32) := Nat.testBit_two_pow_sub_one 32 i
  rw [hland, Int.testBit_land, hmask, testBit_toNat_emod, Bool.and_comm]

/-- The remainder of an exclusive or is that of the remainders. -/
lemma toNat_xor (n : Int) (m : Nat) :
    (n.xor m % 2 ^ 32).toNat = (n % 2 ^ 32).toNat ^^^ (m % 2 ^ 32) := by
  apply Nat.eq_of_testBit_eq
  intro i
  have hm : Int.testBit m i = m.testBit i := rfl
  rw [Nat.testBit_xor, testBit_toNat_emod, testBit_toNat_emod, Nat.testBit_mod_two_pow,
    Int.testBit_lxor, hm, Bool.and_xor_distrib_left]

lemma toNat_start (seed : Int) (length : Nat) :
    (Murmur.start seed length).toNat = (seed.xor length % 2 ^ 32).toNat := by
  have hseed : (seed % 2 ^ 32).toNat < 2 ^ 32 := by omega
  have hword : (wordOfInt seed).toNat = (seed % 2 ^ 32).toNat := Nat.mod_eq_of_lt hseed
  rw [Murmur.start, UInt32.toNat_xor, hword, UInt32.toNat_ofNat', toNat_xor]

end Unbounded

/-! ## The digest -/

/-- **The digest is the same over unbounded integers and over words.**  Under any seed the loop that
cuts products alone gives the digest of words; it starts from the exclusive or of the seed and the
number of bytes, modulo `2^32`, and ends below `2^32`. -/
theorem unbounded_eq_toNat_murmur (seed : Int) (bytes : List UInt8) :
    Unbounded.murmur seed bytes = (murmur seed bytes).toNat ∧
      ((start seed bytes.length).toNat : Int) = seed.xor bytes.length % 2 ^ 32 ∧
      Unbounded.murmur seed bytes < 2 ^ 32 := by
  have hstart : Unbounded.start seed bytes.length = (start seed bytes.length).toNat := by
    rw [Unbounded.start, Unbounded.toNat_land, Unbounded.toNat_start]
  have hdigest : Unbounded.murmur seed bytes = (murmur seed bytes).toNat := by
    rw [Unbounded.murmur, hstart, ← List.nil_append bytes]
    have habsorb := Unbounded.absorb_toNat (start seed bytes.length) [] bytes
    simp only [List.nil_append, List.length_nil] at habsorb ⊢
    rw [habsorb, Unbounded.finish_toNat, murmur]
  refine ⟨hdigest, ?_, ?_⟩
  · rw [Unbounded.toNat_start]
    exact Int.toNat_of_nonneg (Int.emod_nonneg _ (by decide))
  · rw [hdigest]
    exact UInt32.toNat_lt _

/-- A negative seed, a block and a tail of three bytes. -/
example : Unbounded.murmur (-7) [0x78, 0x7b, 0xff, 0x01, 0x80, 0xfe, 0x3a] =
    (murmur (-7) [0x78, 0x7b, 0xff, 0x01, 0x80, 0xfe, 0x3a]).toNat := by
  decide +kernel

end AtomicStyle.Murmur
