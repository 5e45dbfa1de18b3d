import AtomicStyle.Proofs.Css.NumberReading
import AtomicStyle.Proofs.Keyframes.Acceptance
import AtomicStyle.Proofs.Text.Ascii

/-!
# The grammar of frame selectors

What may stand in a frame selector, without the functions that read it.

**Percentages.**  `WritesPercentage` is the grammar of a percentage, along with the number that is
written.  What is read of a percentage is that number
(`WritesPercentage.exists_percentage?`).

**The limit.**  Not the number itself is compared with a hundred but the double nearest to it.  A
hundred has an even significand and is followed by a gap of `2^-46`, so a number may exceed it by half
of that (`Decimal.atMost_toBinary64_iff`).

**Selectors.**  A part of a selector ought to be a keyword or an ASCII percentage up to a hundred
(`IsProperPart`).  Digits of other scripts and the numbers right above a hundred are overlooked
(`IsOverlookedPart`), and nothing else is (`isFramePart_iff`).
-/

namespace AtomicStyle

open Css

/-! ## Percentages -/

/-- The text is a percentage that writes `v` with the given number of places: digits, or a point with
digits behind it and perhaps in front of it, and then a percent sign. -/
inductive WritesPercentage : List Char → ℚ → ℕ → Prop
  | whole {digits : List Char} {ds : List ℕ} (hdigits : Css.Spells digits ds) (hne : ds ≠ []) :
      WritesPercentage (digits ++ ['%']) (ofDigits ds) 0
  | point {digits fraction : List Char} {ds fs : List ℕ} (hdigits : Css.Spells digits ds)
      (hfraction : Css.Spells fraction fs) (hne : fs ≠ []) :
      WritesPercentage (digits ++ '.' :: (fraction ++ ['%']))
        (ofDigits ds + ofDigits fs / 10 ^ fs.length) fs.length

/-- The decimal without a sign that is `v`, with the given number of places. -/
structure Css.Decimal.Denotes (d : Decimal) (v : ℚ) (places : ℕ) : Prop where
  unsigned : d.negative = false
  magnitude : d.magnitude = v
  places : d.places = places

/-- Digits around a point are the number in front of it and the fraction behind it. -/
lemma denotes_point (ds fs : List ℕ) :
    Decimal.Denotes { coefficient := ofDigits (ds ++ fs), places := fs.length }
      (ofDigits ds + ofDigits fs / 10 ^ fs.length) fs.length := by
  refine ⟨rfl, ?_, rfl⟩
  rw [Decimal.magnitude, ofDigits_append]
  push_cast
  rw [add_div, mul_div_cancel_right₀ _ (by positivity)]

lemma denotes_whole (ds : List ℕ) :
    Decimal.Denotes { coefficient := ofDigits ds, places := 0 } (ofDigits ds) 0 :=
  ⟨rfl, by rw [Decimal.magnitude, pow_zero, div_one], rfl⟩

lemma readDigits_percent : readDigits ['%'] = ([], ['%']) := by decide

/-- A percentage is read as the decimal that it writes. -/
lemma WritesPercentage.exists_percentage? {text : List Char} {v : ℚ} {places : ℕ}
    (h : WritesPercentage text v places) :
    ∃ d, percentage? text = some d ∧ d.Denotes v places := by
  cases h with
  | whole hdigits hne =>
      rename_i ds
      obtain ⟨d, ds, rfl⟩ := List.exists_cons_of_ne_nil hne
      refine ⟨_, ?_, denotes_whole (d :: ds)⟩
      rw [percentage?, hdigits.readDigits_append readDigits_percent]
      rfl
  | point hdigits hfraction hne =>
      rename_i ds fs
      obtain ⟨f, fs, rfl⟩ := List.exists_cons_of_ne_nil hne
      refine ⟨_, ?_, denotes_point ds (f :: fs)⟩
      have hpoint : ∀ rest, readDigits ('.' :: rest) = ([], '.' :: rest) := fun rest =>
        readDigits_of_not_isDigit (by decide)
      rw [percentage?, hdigits.readDigits_append (hpoint _)]
      simp only [hfraction.readDigits_append readDigits_percent, if_true]

/-- What is read is a percentage. -/
lemma exists_writesPercentage {text : List Char} {d : Decimal} (h : percentage? text = some d) :
    ∃ v places, WritesPercentage text v places ∧ d.Denotes v places := by
  rw [percentage?] at h
  split at h
  case h_1 ds rest hwhole =>
      obtain ⟨digits, rfl, hdigits⟩ := exists_spells_of_readDigits hwhole
      split at h
      case h_2 => cases h
      case h_1 f fs _ hrest =>
          split_ifs at h with hpercent
          obtain rfl := Option.some.inj h
          obtain ⟨fraction, rfl, hfraction⟩ := exists_spells_of_readDigits hrest
          subst hpercent
          exact ⟨_, _, .point hdigits hfraction (List.cons_ne_nil f fs), denotes_point ds (f :: fs)⟩
  case h_2 d ds hwhole =>
      obtain rfl := Option.some.inj h
      obtain ⟨digits, rfl, hdigits⟩ := exists_spells_of_readDigits hwhole
      exact ⟨_, _, .whole hdigits (List.cons_ne_nil d ds), denotes_whole (d :: ds)⟩
  case h_3 => cases h

/-- A text writes one number at most. -/
lemma WritesPercentage.unique {text : List Char} {v w : ℚ} {j k : ℕ}
    (hv : WritesPercentage text v j) (hw : WritesPercentage text w k) : v = w := by
  obtain ⟨d, hd, hdv⟩ := hv.exists_percentage?
  obtain ⟨e, he, hew⟩ := hw.exists_percentage?
  obtain rfl := Option.some.inj (hd.symm.trans he)
  rw [← hdv.magnitude, hew.magnitude]

/-! ## The limit -/

namespace Binary64

lemma isDouble_hundred : IsDouble (100 * 2 ^ 46) (-46) :=
  ⟨by norm_num, by decide, by decide, Or.inl (by norm_num)⟩

lemma value_hundred : value (100 * 2 ^ 46) (-46) = 100 := by
  rw [value]
  norm_num

lemma atMost_finite {m k : ℕ} {q : ℤ} :
    (Binary64.finite false m q).atMost k = true ↔ value m q ≤ k := by
  have hden : (0 : ℚ) < (dyadic m q).2 := by exact_mod_cast dyadic_pos m q
  rw [← dyadic_eq, div_le_iff₀ hden]
  simp only [atMost, Bool.false_or, decide_eq_true_eq]
  norm_cast

end Binary64

/-- **The limit of a percentage** is half a gap above a hundred. -/
theorem Css.Decimal.atMost_toBinary64_iff {d : Decimal} (h : d.negative = false) :
    d.toBinary64.atMost 100 = true ↔ d.magnitude ≤ 100 + 1 / 2 ^ 47 := by
  have hmagnitude : 0 ≤ d.magnitude := by
    unfold magnitude
    positivity
  have hrounds : ∀ {m q}, Binary64.Rounds d.magnitude m q →
      (Binary64.value m q ≤ 100 ↔ d.magnitude ≤ 100 + 1 / 2 ^ 47) := by
    intro m q hround
    have hiff := hround.value_le_iff hmagnitude Binary64.isDouble_hundred (by norm_num)
    rw [Binary64.value_hundred] at hiff
    rw [hiff]
    norm_num
  constructor
  · intro hmost
    have hpos : 0 < Nat.pow 10 d.places := Nat.pow_pos (by decide)
    rcases Binary64.ofRatio_cases d.negative d.coefficient hpos with hinfinite | ⟨m, q, hfinite⟩
    · rw [toBinary64, hinfinite, h] at hmost
      cases hmost
    · rw [toBinary64, hfinite, h, Binary64.atMost_finite] at hmost
      exact (hrounds (toBinary64_eq_finite_iff.mp hfinite)).mp hmost
  · intro hle
    have hlarge : (101 : ℚ) ≤ Binary64.value (2 ^ 53 - 1) Binary64.maxExponent := by
      have hpow : (1 : ℚ) ≤ 2 ^ Binary64.maxExponent :=
        one_le_zpow₀ one_le_two (by decide)
      rw [Binary64.value]
      push_cast
      linarith
    obtain ⟨m, q, hround⟩ := Binary64.exists_rounds hmagnitude (by linarith)
    rw [toBinary64_eq_finite_iff.mpr hround, h, Binary64.atMost_finite]
    exact (hrounds hround).mpr hle

/-! ## Selectors -/

section

variable {part : List Char}

/-- The part is `from`, `to` or an ASCII percentage up to a hundred. -/
def IsProperPart (part : List Char) : Prop :=
  part = "from".toList ∨ part = "to".toList ∨
    ∃ v places, WritesPercentage part v places ∧ v ≤ 100 ∧ IsAscii part

/-- The part is a percentage in the digits of other scripts, or one in ASCII that is above a hundred,
by half a gap of the doubles behind a hundred at most. -/
def IsOverlookedPart (part : List Char) : Prop :=
  ∃ v places, WritesPercentage part v places ∧ v ≤ 100 + 1 / 2 ^ 47 ∧ (IsAscii part → 100 < v)

lemma isPercentage_iff : isPercentage part = true ↔
    ∃ v places, WritesPercentage part v places ∧ v ≤ 100 + 1 / 2 ^ 47 := by
  constructor
  · intro h
    rw [isPercentage] at h
    split at h
    case h_2 => cases h
    case h_1 d hd =>
        obtain ⟨v, places, hwrites, hdenotes⟩ := exists_writesPercentage hd
        rw [Decimal.atMost_toBinary64_iff hdenotes.unsigned, hdenotes.magnitude] at h
        exact ⟨v, places, hwrites, h⟩
  · rintro ⟨v, places, hwrites, hv⟩
    obtain ⟨d, hd, hdenotes⟩ := hwrites.exists_percentage?
    rw [isPercentage, hd]
    dsimp only
    rwa [Decimal.atMost_toBinary64_iff hdenotes.unsigned, hdenotes.magnitude]

/-- **What may stand in a selector**: the parts that ought to, and the overlooked ones. -/
theorem isFramePart_iff : isFramePart part = true ↔ IsProperPart part ∨ IsOverlookedPart part := by
  have hchars : ∀ keyword, String.ofList part = keyword ↔ part = keyword.toList := fun keyword =>
    ⟨fun h => by rw [← h, String.toList_ofList], fun h => by rw [h, String.ofList_toList]⟩
  have hkeyword : frameKeywords.contains (String.ofList part) = true ↔
      part = "from".toList ∨ part = "to".toList := by
    rw [List.contains_iff_mem, frameKeywords, List.mem_pair, hchars, hchars]
  rw [isFramePart, Bool.or_eq_true, hkeyword, isPercentage_iff]
  constructor
  · rintro ((hfrom | hto) | ⟨v, places, hwrites, hv⟩)
    · exact Or.inl (Or.inl hfrom)
    · exact Or.inl (Or.inr (Or.inl hto))
    · by_cases hproper : v ≤ 100 ∧ IsAscii part
      · exact Or.inl (Or.inr (Or.inr ⟨v, places, hwrites, hproper⟩))
      · exact Or.inr ⟨v, places, hwrites, hv, fun hascii =>
          not_le.mp fun hle => hproper ⟨hle, hascii⟩⟩
  · rintro ((hfrom | hto | ⟨v, places, hwrites, hv, -⟩) | ⟨v, places, hwrites, hv, -⟩)
    · exact Or.inl (Or.inl hfrom)
    · exact Or.inl (Or.inr hto)
    · refine Or.inr ⟨v, places, hwrites, hv.trans ?_⟩
      norm_num
    · exact Or.inr ⟨v, places, hwrites, hv⟩

/-- What is overlooked ought not to be there. -/
lemma IsOverlookedPart.not_isProperPart (h : IsOverlookedPart part) : ¬IsProperPart part := by
  obtain ⟨v, places, hwrites, -, habove⟩ := h
  obtain ⟨d, hd, -⟩ := hwrites.exists_percentage?
  rintro (rfl | rfl | ⟨w, _, hwrites', hw, hascii⟩)
  · cases hd
  · cases hd
  · have hlt := habove hascii
    rw [hwrites.unique hwrites'] at hlt
    exact absurd hw (not_le.mpr hlt)

/-- With fourteen places a percentage above a hundred is too far above it. -/
lemma WritesPercentage.fifteen_le {v : ℚ} {places : ℕ} (h : WritesPercentage part v places)
    (habove : 100 < v) (hv : v ≤ 100 + 1 / 2 ^ 47) : 15 ≤ places := by
  obtain ⟨d, -, hdenotes⟩ := h.exists_percentage?
  by_contra hfew
  have hpower : (10 : ℚ) ^ places ≤ 10 ^ 14 := pow_le_pow_right₀ (by norm_num) (by omega)
  have hpos : (0 : ℚ) < 10 ^ places := by positivity
  rw [← hdenotes.magnitude, Decimal.magnitude, hdenotes.places] at habove hv
  rw [lt_div_iff₀ hpos] at habove
  rw [div_le_iff₀ hpos] at hv
  have hsucc : 100 * 10 ^ places + 1 ≤ (d.coefficient : ℚ) := by exact_mod_cast habove
  norm_num at hv hpower
  linarith

end

/-- **The grammar of frame selectors.**  A selector comes through exactly when each of its parts ought
to be there or is overlooked, and then it is its parts with nothing but commas between them.  Any
other selector is reported as malformed.  An overlooked part is no proper one, and when it is written
in ASCII it has at least fifteen digits behind its point. -/
theorem frameSelector_text (s : String) (frame : Value) :
    (∀ selector, frameSelector (.text s) frame = .ok selector ↔
        (∀ part ∈ selectorParts s, IsProperPart part ∨ IsOverlookedPart part) ∧
          selector = String.ofList (Text.joinWith ',' (selectorParts s))) ∧
      ((¬∀ part ∈ selectorParts s, IsProperPart part ∨ IsOverlookedPart part) →
        ∃ r : Rejection, frameSelector (.text s) frame = reject r ∧
          r.kind = .malformedKeyframes ∧ r.selector = some s ∧ r.fragment = frame) ∧
      ∀ part, IsOverlookedPart part → ¬IsProperPart part ∧
        (IsAscii part → ∃ v places, WritesPercentage part v places ∧ 100 < v ∧ 15 ≤ places) := by
  have hparts : (selectorParts s).all isFramePart = true ↔
      ∀ part ∈ selectorParts s, IsProperPart part ∨ IsOverlookedPart part := by
    simp only [List.all_eq_true, isFramePart_iff]
  have hselector : frameSelector (.text s) frame = textSelector s frame := rfl
  rw [hselector, textSelector_eq]
  refine ⟨fun selector => ?_, fun hbad => ?_, fun part hpart => ⟨hpart.not_isProperPart, ?_⟩⟩
  · split_ifs with hall
    · rw [Except.ok.injEq, eq_comm, and_iff_right (hparts.mp hall)]
    · exact iff_of_false (reject_ne_ok _ _) fun h => hall (hparts.mpr h.1)
  · rw [if_neg (mt hparts.mp hbad)]
    exact ⟨_, rfl, rfl, rfl, rfl⟩
  · obtain ⟨v, places, hwrites, hv, habove⟩ := hpart
    exact fun hascii => ⟨v, places, hwrites, habove hascii, hwrites.fifteen_le (habove hascii) hv⟩

/-- A percentage above a hundred and one in Arabic digits come through, but `100.1%` does not. -/
example : isFramePart "100.000000000000001%".toList = true ∧ isFramePart "٥٠%".toList = true ∧
    isFramePart "100.1%".toList = false := by
  decide +kernel

end AtomicStyle
