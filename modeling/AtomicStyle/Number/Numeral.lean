/-!
# Positional numerals

A natural number is written in a base by dividing it down to zero.  `digits` gives the digits from
the most significant one, and `encode` spells them with `0`-`9` and `a`-`z`; zero is the single
digit `0`.  `decimal` and `base36` are the two bases in use: identifiers are written in base 36
because it is the densest numeral that needs only lower-case letters and digits.

* `encode`, `decimal`, `base36` - numerals of natural numbers;
* `signed` - a decimal integer with its sign;
* `decode?` - the number that a numeral denotes.
-/

namespace AtomicStyle.Numeral

/-- The digits of `n` in the given base from the least significant one; none for zero.  A base
below two is read as two. -/
def digitsUp (base n : Nat) : List Nat :=
  if n = 0 then [] else n % max base 2 :: digitsUp base (n / max base 2)
termination_by n
decreasing_by exact Nat.div_lt_self (by omega) (by omega)

/-- The character of a digit below 36. -/
def digitChar (d : Nat) : Char :=
  if d < 10 then Char.ofNat (0x30 + d) else Char.ofNat (0x61 + (d - 10))

/-- The digit that a character stands for: a decimal digit or a small letter. -/
def digitOf? (c : Char) : Option Nat :=
  if '0' ≤ c ∧ c ≤ '9' then some (c.toNat - 0x30)
  else if 'a' ≤ c ∧ c ≤ 'z' then some (c.toNat - 0x61 + 10)
  else none

/-- The numeral of `n` in the given base, which is at most 36. -/
def encode (base n : Nat) : List Char :=
  if n = 0 then ['0'] else ((digitsUp base n).map digitChar).reverse

/-- The number denoted by a numeral in the given base, continued from the number `acc` read so
far. -/
def decodeFrom? (base acc : Nat) : List Char → Option Nat
  | [] => some acc
  | c :: cs =>
    match digitOf? c with
    | some d => if d < base then decodeFrom? base (acc * base + d) cs else none
    | none => none

/-- The number denoted by a non-empty numeral in the given base. -/
def decode? (base : Nat) : List Char → Option Nat
  | [] => none
  | c :: cs => decodeFrom? base 0 (c :: cs)

/-- The decimal numeral of a natural number. -/
def decimal (n : Nat) : List Char :=
  encode 10 n

/-- The decimal numeral of an integer, with a minus sign when it is negative. -/
def signed : Int → List Char
  | .ofNat n => decimal n
  | .negSucc n => '-' :: decimal (n + 1)

/-- The lower-case base-36 numeral of a natural number. -/
def base36 (n : Nat) : List Char :=
  encode 36 n

/-- The lower-case hexadecimal numeral of `n`, filled with zeros in front to at least `width`
digits. -/
def hexadecimal (width n : Nat) : List Char :=
  let numeral := encode 16 n
  List.replicate (width - numeral.length) '0' ++ numeral

/-- A digit is read back from its character. -/
theorem digitOf?_digitChar {d : Nat} (h : d < 36) : digitOf? (digitChar d) = some d := by
  have all : ∀ e ∈ List.range 36, digitOf? (digitChar e) = some e := by decide
  exact all d (List.mem_range.mpr h)

@[simp] theorem encode_zero (base : Nat) : encode base 0 = ['0'] := rfl

end AtomicStyle.Numeral
