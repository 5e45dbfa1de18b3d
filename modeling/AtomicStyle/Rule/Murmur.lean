/-!
# A 32-bit digest of bytes

MurmurHash2 takes its bytes in blocks of four, read as little-endian words, mixes each word and
folds it into the state; up to three bytes that remain are folded in at the end, and a final
mixing spreads the last bits.  All arithmetic is that of 32-bit words.

* `mixWord` - the mixing of one word by itself;
* `absorb` - the state after the blocks and the tail;
* `murmur` - the digest.
-/

namespace AtomicStyle.Murmur

/-- The multiplier of the digest. -/
def multiplier : UInt32 := 0x5bd1e995

/-- The little-endian word of four bytes. -/
def word (a b c d : UInt8) : UInt32 :=
  a.toUInt32 ||| (b.toUInt32 <<< 8) ||| (c.toUInt32 <<< 16) ||| (d.toUInt32 <<< 24)

/-- The mixing of one word before it meets the state. -/
def mixWord (k : UInt32) : UInt32 :=
  let k := k * multiplier
  (k ^^^ (k >>> 24)) * multiplier

/-- The state after one block. -/
def absorbWord (h k : UInt32) : UInt32 :=
  (h * multiplier) ^^^ mixWord k

/-- The state after the bytes, four at a time, and after what remains of them. -/
def absorb (h : UInt32) : List UInt8 → UInt32
  | a :: b :: c :: d :: rest => absorb (absorbWord h (word a b c d)) rest
  | [a, b, c] =>
    (h ^^^ (c.toUInt32 <<< 16) ^^^ (b.toUInt32 <<< 8) ^^^ a.toUInt32) * multiplier
  | [a, b] => (h ^^^ (b.toUInt32 <<< 8) ^^^ a.toUInt32) * multiplier
  | [a] => (h ^^^ a.toUInt32) * multiplier
  | [] => h

/-- The last mixing of the state. -/
def finish (h : UInt32) : UInt32 :=
  let h := (h ^^^ (h >>> 13)) * multiplier
  h ^^^ (h >>> 15)

/-- The word of an integer modulo `2^32`. -/
def wordOfInt (n : Int) : UInt32 :=
  UInt32.ofNat (n % 0x100000000).toNat

/-- The state in front of the bytes: the seed combined with their number. -/
def start (seed : Int) (length : Nat) : UInt32 :=
  wordOfInt seed ^^^ UInt32.ofNat length

/-- The digest of the bytes under a seed, of which the last 32 bits count. -/
def murmur (seed : Int) (bytes : List UInt8) : UInt32 :=
  finish (absorb (start seed bytes.length) bytes)

/-! ## First facts -/

/-- A byte that is shifted inside a word loses no bit. -/
theorem toNat_byte_shiftLeft (b : UInt8) {t : UInt32} {s : Nat} (ht : t.toNat = s) (hs : s ≤ 24) :
    (b.toUInt32 <<< t).toNat = b.toNat <<< s := by
  have hpow : 2 ^ s ≤ 2 ^ 24 := Nat.pow_le_pow_right (by decide) hs
  have hfits : b.toNat * 2 ^ s < 2 ^ 32 :=
    Nat.lt_of_lt_of_le (Nat.mul_lt_mul_of_lt_of_le b.toNat_lt hpow (by decide)) (by decide)
  have hshift : s % 32 = s := Nat.mod_eq_of_lt (by omega)
  rw [UInt32.toNat_shiftLeft, UInt8.toNat_toUInt32, ht, hshift, Nat.shiftLeft_eq,
    Nat.mod_eq_of_lt hfits]

/-- A word is the number that its bytes make up, the first of them the least significant. -/
theorem toNat_word (a b c d : UInt8) :
    (word a b c d).toNat = a.toNat + 256 * (b.toNat + 256 * (c.toNat + 256 * d.toNat)) := by
  have ha := a.toNat_lt
  have hb := b.toNat_lt
  have hc := c.toNat_lt
  -- each byte is put in front of a number that ends below it
  have hput : ∀ x y s, x < 2 ^ s → x ||| (y <<< s) = y * 2 ^ s + x := by
    intro x y s hx
    rw [Nat.or_comm, ← Nat.shiftLeft_add_eq_or_of_lt hx, Nat.shiftLeft_eq]
  have hsecond := hput a.toNat b.toNat 8 ha
  have hthird := hput (b.toNat * 2 ^ 8 + a.toNat) c.toNat 16 (by omega)
  have hfourth := hput (c.toNat * 2 ^ 16 + (b.toNat * 2 ^ 8 + a.toNat)) d.toNat 24 (by omega)
  rw [word, UInt32.toNat_or, UInt32.toNat_or, UInt32.toNat_or, UInt8.toNat_toUInt32,
    toNat_byte_shiftLeft b (s := 8) rfl (by decide),
    toNat_byte_shiftLeft c (s := 16) rfl (by decide),
    toNat_byte_shiftLeft d (s := 24) rfl (by decide), hsecond, hthird, hfourth]
  omega

/-- A word mixed with its own upper bits, as a number. -/
theorem toNat_xorShift (k : UInt32) {t : UInt32} {s : Nat} (ht : t.toNat = s) (hs : s < 32) :
    (k ^^^ (k >>> t)).toNat = k.toNat ^^^ (k.toNat >>> s) := by
  rw [UInt32.toNat_xor, UInt32.toNat_shiftRight, ht, Nat.mod_eq_of_lt hs]

end AtomicStyle.Murmur
