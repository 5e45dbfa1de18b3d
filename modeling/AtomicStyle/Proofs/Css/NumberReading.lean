import AtomicStyle.Css.Number
import AtomicStyle.Css.Decimal
import AtomicStyle.Number.Layout
import AtomicStyle.Proofs.Number.Places

/-!
# Reading what was written

The text of a number is read as a decimal again.

**Digits.**  A numeral is a text of digits (`exists_spells_decimal`), and so are its parts and the
zeros that fill it up.  All digits in front of something else are read (`Spells.readDigits_append`).

**Positional texts.**  Wherever the point is set, the decimal that is read is the number
(`exists_readUnsigned?_positional`).
-/

namespace AtomicStyle.Css

open Text

/-! ## Digits -/

/-- The text consists of digits with the given values. -/
def Spells (text : List Char) (ds : List ℕ) : Prop :=
  text.map digitValue? = ds.map some

lemma Spells.append {text text' : List Char} {ds ds' : List ℕ} (h : Spells text ds)
    (h' : Spells text' ds') : Spells (text ++ text') (ds ++ ds') := by
  rw [Spells, List.map_append, List.map_append, h, h']

lemma Spells.length_eq {text : List Char} {ds : List ℕ} (h : Spells text ds) :
    ds.length = text.length := by
  have hlength := congrArg List.length h
  rwa [List.length_map, List.length_map, eq_comm] at hlength

lemma spells_zeros (k : ℕ) : Spells (List.replicate k '0') (List.replicate k 0) := by
  have hzero : digitValue? '0' = some 0 := by decide
  rw [Spells, List.map_replicate, List.map_replicate, hzero]

/-- All digits are read. -/
lemma Spells.readDigits_append {text rest : List Char} {ds : List ℕ} (h : Spells text ds)
    (hrest : readDigits rest = ([], rest)) : readDigits (text ++ rest) = (ds, rest) := by
  induction text generalizing ds with
  | nil =>
      obtain rfl : ds = [] := by
        have := h.length_eq
        exact List.length_eq_zero_iff.mp this
      exact hrest
  | cons c cs ih =>
      cases ds with
      | nil => cases h
      | cons d ds =>
          obtain ⟨hc, hcs⟩ := List.cons.inj h
          rw [List.cons_append, readDigits, hc, ih hcs]

/-- What is read as digits are digits. -/
lemma exists_spells_of_readDigits {text rest : List Char} {ds : List ℕ}
    (h : readDigits text = (ds, rest)) : ∃ digits, text = digits ++ rest ∧ Spells digits ds := by
  induction text generalizing ds with
  | nil =>
      obtain ⟨rfl, rfl⟩ := Prod.mk.inj h
      exact ⟨[], rfl, rfl⟩
  | cons c cs ih =>
      rw [readDigits] at h
      split at h
      case h_1 d hd =>
          obtain ⟨rfl, hrest⟩ := Prod.mk.inj h
          obtain ⟨digits, hcs, hdigits⟩ := ih (Prod.ext rfl hrest)
          exact ⟨c :: digits, congrArg (c :: ·) hcs, congrArg₂ List.cons hd hdigits⟩
      case h_2 =>
          obtain ⟨rfl, rfl⟩ := Prod.mk.inj h
          exact ⟨[], rfl, rfl⟩

/-- Digits are worth what positional notation makes of them. -/
lemma ofDigits_reverse (ds : List ℕ) : ofDigits ds.reverse = Nat.ofDigits 10 ds := by
  induction ds with
  | nil => rfl
  | cons d ds ih =>
      have hconcat : ofDigits (ds.reverse ++ [d]) = 10 * ofDigits ds.reverse + d :=
        List.foldl_concat _ _ _ _
      rw [List.reverse_cons, hconcat, ih, Nat.ofDigits_cons, Nat.add_comm]

lemma ofDigits_append (ds ds' : List ℕ) :
    ofDigits (ds ++ ds') = ofDigits ds * 10 ^ ds'.length + ofDigits ds' := by
  have hvalue : ∀ l, ofDigits l = Nat.ofDigits 10 l.reverse := fun l => by
    rw [← ofDigits_reverse, List.reverse_reverse]
  rw [hvalue, hvalue ds, hvalue ds', List.reverse_append, Nat.ofDigits_append, List.length_reverse,
    Nat.add_comm, Nat.mul_comm]

lemma ofDigits_zeros (k : ℕ) : ofDigits (List.replicate k 0) = 0 := by
  rw [← List.reverse_replicate, ofDigits_reverse, Nat.ofDigits_replicate_zero]

/-- A numeral spells its number. -/
lemma exists_spells_decimal (n : ℕ) :
    ∃ ds, Spells (Numeral.decimal n) ds ∧ ofDigits ds = n ∧ ds ≠ [] := by
  have hvalue : ∀ d < 10, digitValue? (Numeral.digitChar d) = some d := by decide
  by_cases hn : n = 0
  · exact ⟨[0], by rw [hn]; rfl, hn.symm, List.cons_ne_nil _ _⟩
  · refine ⟨(Nat.digits 10 n).reverse, ?_, ?_, ?_⟩
    · rw [Numeral.decimal, Numeral.encode_of_ne_zero (by decide) hn, Spells, List.map_reverse,
        List.map_map, List.map_reverse]
      congr 1
      exact List.map_congr_left fun d hd => hvalue d (Nat.digits_lt_base (by decide) hd)
    · rw [ofDigits_reverse, Nat.ofDigits_digits]
    · exact List.reverse_ne_nil_iff.mpr (Nat.digits_ne_nil_iff_ne_zero.mpr hn)

/-! ## Unsigned decimals -/

namespace Decimal

/-- The number that a decimal denotes, without its sign. -/
def magnitude (d : Decimal) : ℚ :=
  d.coefficient / 10 ^ d.places

lemma toBinary64_eq_finite_iff {d : Decimal} {m : ℕ} {q : ℤ} :
    d.toBinary64 = .finite d.negative m q ↔ Binary64.Rounds d.magnitude m q := by
  have hpos : 0 < Nat.pow 10 d.places := Nat.pow_pos (by decide)
  rw [toBinary64, Binary64.ofRatio_eq_finite_iff hpos, Nat.pow_eq, Nat.cast_pow, Nat.cast_ofNat,
    magnitude]

section

variable {text rest : List Char} {ds : List ℕ}

lemma readUnsigned?_of_whole (h : readDigits text = (ds, rest)) (hds : ds ≠ [])
    (hpoint : rest.head? ≠ some '.') :
    readUnsigned? text = some ({ coefficient := ofDigits ds, places := 0 }, rest) := by
  obtain ⟨d, ds, rfl⟩ := List.exists_cons_of_ne_nil hds
  rw [readUnsigned?, h]
  cases rest with
  | nil => rfl
  | cons c cs =>
      split
      case h_1 heq => cases heq
      case h_2 _ heq => cases heq
      case h_3 heq =>
          obtain ⟨rfl, rfl⟩ := List.cons.inj (Prod.mk.inj heq).2
          exact absurd rfl hpoint
      case h_4 heq =>
          obtain ⟨rfl, rfl⟩ := Prod.mk.inj heq
          rfl

lemma readUnsigned?_of_point {cs : List Char} {fs : List ℕ} (ds : List ℕ)
    (h : readDigits text = (ds, '.' :: cs)) (hds : ds ≠ []) (hcs : readDigits cs = (fs, rest)) :
    readUnsigned? text =
      some ({ coefficient := ofDigits (ds ++ fs), places := fs.length }, rest) := by
  obtain ⟨d, ds, rfl⟩ := List.exists_cons_of_ne_nil hds
  rw [readUnsigned?, h]
  simp only [hcs]

/-- An unsigned decimal has no sign in front. -/
lemma readSign_of_isSome (h : (readUnsigned? text).isSome = true) :
    readSign text = (false, text) := by
  unfold readSign
  split
  case h_1 => cases h
  case h_2 => cases h
  case h_3 => rfl

lemma read?_signed (negative : Bool) {d : Decimal} (h : readUnsigned? text = some (d, rest)) :
    read? ((if negative then ['-'] else []) ++ text) =
      some ({ d with negative := negative }, rest) := by
  cases negative with
  | true =>
      have hsign : readSign ('-' :: text) = (true, text) := rfl
      rw [if_pos rfl, List.singleton_append, read?, hsign]
      dsimp only
      rw [h]
      rfl
  | false =>
      have hsign := readSign_of_isSome (Option.isSome_iff_exists.mpr ⟨_, h⟩)
      rw [if_neg Bool.false_ne_true, List.nil_append, read?, hsign]
      dsimp only
      rw [h]
      rfl

end

end Decimal

lemma exists_readUnsigned?_decimal (n : ℕ) {rest : List Char}
    (hrest : readDigits rest = ([], rest)) (hpoint : rest.head? ≠ some '.') :
    ∃ d, Decimal.readUnsigned? (Numeral.decimal n ++ rest) = some (d, rest) ∧
      d.magnitude = n := by
  obtain ⟨ds, hds, hvalue, hne⟩ := exists_spells_decimal n
  refine ⟨_, Decimal.readUnsigned?_of_whole (hds.readDigits_append hrest) hne hpoint, ?_⟩
  rw [Decimal.magnitude, hvalue, pow_zero, div_one]

/-- Digits on both sides of a point are read, and denote what they denote without the point, with as
many powers of ten less as there are digits behind it. -/
lemma exists_readUnsigned?_point {whole fraction rest : List Char} {ws fs : List ℕ} {n k : ℕ}
    {e : ℤ} (hws : Spells whole ws) (hne : ws ≠ []) (hfs : Spells fraction fs)
    (hrest : readDigits rest = ([], rest)) (hvalue : ofDigits (ws ++ fs) = n * 10 ^ k)
    (he : (k : ℤ) - fraction.length = e) :
    ∃ d, Decimal.readUnsigned? (whole ++ '.' :: (fraction ++ rest)) = some (d, rest) ∧
      d.magnitude = n * 10 ^ e := by
  have hpoint : readDigits ('.' :: (fraction ++ rest)) = ([], '.' :: (fraction ++ rest)) :=
    readDigits_of_not_isDigit (by decide)
  refine ⟨_, Decimal.readUnsigned?_of_point ws (hws.readDigits_append hpoint) hne
    (hfs.readDigits_append hrest), ?_⟩
  rw [Decimal.magnitude, hvalue, hfs.length_eq, ← he, zpow_sub₀ (by norm_num), zpow_natCast,
    zpow_natCast, ← mul_div_assoc]
  push_cast
  rfl

/-- **Wherever the point is set**, the number is read back. -/
theorem exists_readUnsigned?_positional (n : ℕ) (e : ℤ) {rest : List Char}
    (hrest : readDigits rest = ([], rest)) :
    ∃ d, Decimal.readUnsigned?
        (Layout.positional (Numeral.decimal n) (e + (Numeral.decimal n).length) ++ rest) =
          some (d, rest) ∧ d.magnitude = n * 10 ^ e := by
  obtain ⟨ds, hds, hvalue, hne⟩ := exists_spells_decimal n
  have hlength := hds.length_eq
  generalize Numeral.decimal n = text at *
  have hzero : Spells ['0'] [0] := rfl
  have hnothing : ofDigits [0] = 0 := rfl
  unfold Layout.positional
  dsimp only
  split_ifs with hsmall hlarge
  · -- zeros behind the point
    generalize hk : (-(e + text.length)).toNat = k
    have hread := exists_readUnsigned?_point (n := n) (k := 0) (e := e) hzero
      (List.cons_ne_nil _ _) ((spells_zeros k).append hds) hrest
      (by rw [ofDigits_append, ofDigits_append, ofDigits_zeros, hnothing, hvalue]; ring)
      (by rw [List.length_append, List.length_replicate]; omega)
    simpa using hread
  · -- zeros in front of the point, and one behind it
    generalize hk : (e + text.length).toNat - text.length = k
    have hread := exists_readUnsigned?_point (n := n) (k := k + 1) (e := e)
      (hds.append (spells_zeros k)) (List.append_ne_nil_of_left_ne_nil hne _) hzero hrest
      (by
        rw [ofDigits_append, ofDigits_append, ofDigits_zeros, hnothing, hvalue,
          List.length_replicate, List.length_singleton]
        ring)
      (by rw [List.length_singleton]; omega)
    simpa using hread
  · -- digits on both sides
    generalize hk : (e + text.length).toNat = k at *
    have hhead : Spells (text.take k) (ds.take k) := by
      rw [Spells, List.map_take, List.map_take, hds]
    have htail : Spells (text.drop k) (ds.drop k) := by
      rw [Spells, List.map_drop, List.map_drop, hds]
    have hpositive : ds.take k ≠ [] := by
      have := List.length_pos_iff.mpr hne
      refine List.ne_nil_of_length_pos ?_
      rw [List.length_take]
      omega
    have hread := exists_readUnsigned?_point (n := n) (k := 0) (e := e) hhead hpositive htail hrest
      (by rw [List.take_append_drop, hvalue, pow_zero, mul_one])
      (by rw [List.length_drop]; omega)
    simpa using hread

/-! ## Doubles -/

section

open Binary64

variable {negative : Bool} {m u : ℕ} {q : ℤ}

lemma signed_of_pos (negative : Bool) {k : ℕ} (hk : 0 < k) :
    Numeral.signed (if negative then -(k : ℤ) else k) =
      (if negative then ['-'] else []) ++ Numeral.decimal k := by
  cases negative with
  | false => rfl
  | true =>
      obtain ⟨j, rfl⟩ := Nat.exists_eq_succ_of_ne_zero hk.ne'
      rfl

lemma length_decimal {n : ℕ} (hn : n ≠ 0) : (Numeral.decimal n).length = Shortest.digitCount n := by
  rw [Numeral.decimal, Numeral.encode_of_ne_zero (by decide) hn, List.length_reverse,
    List.length_map, Shortest.digitCount_eq]

/-- A rounded number of units that is not whole is laid out with a point. -/
lemma isPositional_digits (h : Rounds ((u : ℚ) / 10 ^ 4) m q) (hu : 0 < u) (hq : q < 0) :
    Layout.isPositional ((Shortest.digits m q).2 +
      (Numeral.decimal (Shortest.digits m q).1).length - 1) = true := by
  have hunit := unit_le_value h hu
  have hm := pos_of_value_pos (value_pos h hu)
  have hdigits := Shortest.rounds_digits h.double hm
  have hc : (Shortest.digits m q).1 ≠ 0 := by
    intro hzero
    rw [hzero, Nat.cast_zero, zero_mul] at hdigits
    exact hm.ne' (rounds_zero_iff.mp hdigits).1
  have hlow := Shortest.zpow_le_decimal hc (Shortest.digits m q).2
  have hhigh := Shortest.decimal_lt_zpow (Shortest.digits m q).1 (Shortest.digits m q).2
  rw [length_decimal hc, Layout.isPositional, Bool.and_eq_true, decide_eq_true_eq,
    decide_eq_true_eq]
  constructor
  · -- a decimal below a unit would round to a double below that of a unit
    by_contra hsmall
    have hbelow : ((Shortest.digits m q).1 : ℚ) * 10 ^ (Shortest.digits m q).2 ≤
        (1 : ℕ) / (10000 : ℕ) :=
      calc ((Shortest.digits m q).1 : ℚ) * 10 ^ (Shortest.digits m q).2
          ≤ 10 ^ (-4 : ℤ) := hhigh.le.trans (zpow_le_zpow_right₀ (by norm_num) (by omega))
        _ = (1 : ℕ) / (10000 : ℕ) := by norm_num
    have hle := hdigits.mono (by positivity) hbelow rounds_unit
    obtain ⟨rfl, rfl⟩ := h.double.eq_of_value_eq rounds_unit.double (le_antisymm hle hunit)
    revert hsmall
    decide +kernel
  · by_contra hlarge
    have habove : (2 : ℚ) ^ (53 : ℤ) ≤
        (Shortest.digits m q).1 * 10 ^ (Shortest.digits m q).2 :=
      calc (2 : ℚ) ^ (53 : ℤ) ≤ 10 ^ (16 : ℤ) := by norm_num
        _ ≤ (Shortest.digits m q).1 * 10 ^ (Shortest.digits m q).2 :=
            (zpow_le_zpow_right₀ (by norm_num) (by omega)).trans hlow
    have hge := hdigits.ge_of_ge (isRepresentable_two_zpow (by decide)) habove
    have hlt := h.double.value_lt
    have hle : (2 : ℚ) ^ q ≤ 1 := zpow_le_one_of_nonpos₀ one_le_two hq.le
    norm_num at hge
    linarith

/-- **The text of a number is read back** as the double that it was laid out from. -/
theorem exists_read?_formatFloat {x : Binary64} {rest : List Char}
    (hx : x.roundPlaces Numeric.places = .finite negative m q)
    (hy : Rounds ((u : ℚ) / 10 ^ 4) m q) (hu : 0 < u) (hrest : readDigits rest = ([], rest))
    (hpoint : rest.head? ≠ some '.') :
    ∃ d, Decimal.read? (Numeric.formatFloat x ++ rest) = some (d, rest) ∧
      d.toBinary64 = .finite negative m q := by
  have hpositive := value_pos hy hu
  have hm := pos_of_value_pos hpositive
  obtain ⟨text, d, hread, hmagnitude, htext⟩ : ∃ text d,
      Decimal.readUnsigned? (text ++ rest) = some (d, rest) ∧ Rounds d.magnitude m q ∧
        Numeric.formatFloat x = (if negative then ['-'] else []) ++ text := by
    rw [Numeric.formatFloat, hx]
    rcases toInt?_cases negative m q with ⟨k, hvalue, hwhole⟩ | ⟨hq, hpart⟩
    · obtain ⟨d, hread, hmagnitude⟩ := exists_readUnsigned?_decimal k hrest hpoint
      have hk : 0 < k := by
        rw [hvalue] at hpositive
        exact_mod_cast hpositive
      refine ⟨Numeral.decimal k, d, hread, ?_, ?_⟩
      · rw [hmagnitude, ← hvalue]
        exact hy.double.rounds
      · rw [hwhole]
        exact signed_of_pos negative hk
    · obtain ⟨d, hread, hmagnitude⟩ := exists_readUnsigned?_positional (Shortest.digits m q).1
        (Shortest.digits m q).2 hrest
      refine ⟨_, d, hread, ?_, ?_⟩
      · rw [hmagnitude]
        exact Shortest.rounds_digits hy.double hm
      · rw [hpart]
        dsimp only
        rw [Layout.float, if_neg hm.ne', Layout.magnitude]
        dsimp only
        rw [if_pos (isPositional_digits hy hu hq)]
  refine ⟨{ d with negative := negative }, ?_, ?_⟩
  · rw [htext, List.append_assoc]
    exact Decimal.read?_signed negative hread
  · exact Decimal.toBinary64_eq_finite_iff.mpr hmagnitude

end

end AtomicStyle.Css
