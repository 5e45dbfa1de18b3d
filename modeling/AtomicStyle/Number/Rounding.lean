/-!
# Rounding quotients

Both the doubles and the four decimal places of a style number come from one operation: a fraction
is replaced by a nearest integer, and of two equally near ones by the even one.

* `roundDiv n d` - the integer nearest to `n / d`;
* `roundDiv_near` - it is within half a unit of the fraction.
-/

namespace AtomicStyle.Number

/-- The natural number nearest to `n / d`; a half goes to the even neighbour. -/
def roundDiv (n d : Nat) : Nat :=
  let k := n / d
  let r := n % d
  if 2 * r < d then k
  else if d < 2 * r then k + 1
  else if k % 2 = 0 then k else k + 1

/-- The result lies within half a unit of the fraction. -/
theorem roundDiv_near (n : Nat) {d : Nat} (h : 0 < d) :
    2 * (roundDiv n d * d) ≤ 2 * n + d ∧ 2 * n ≤ 2 * (roundDiv n d * d) + d := by
  have hn := Nat.div_add_mod' n d
  have hr := Nat.mod_lt n h
  simp only [roundDiv]
  generalize n / d = k at *
  generalize n % d = r at *
  have hs : (k + 1) * d = k * d + d := by rw [Nat.add_mul, Nat.one_mul]
  split
  · omega
  · split
    · rw [hs]; omega
    · split
      · omega
      · rw [hs]; omega

end AtomicStyle.Number
