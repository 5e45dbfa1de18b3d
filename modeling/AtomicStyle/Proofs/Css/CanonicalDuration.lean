import AtomicStyle.Proofs.Css.DurationText

/-!
# Canonical durations

The milliseconds of a duration are compared with ten before they are rounded to four decimal places,
and it is the rounded number that is written.  So what is written need not be what is written of it
again.

**Doubles.**  The milliseconds of a duration are a double, or too many (`milliseconds_cases`).  From
ten on they are written in seconds and are ten and more when these are read (`exists_written`).

**Sides.**  Below ten, the places may make zero or ten of what is neither, and the unit is then the
wrong one (`isCanonicalDuration_milliseconds_iff`).  From ten on, a duration is canonical if its
seconds are written again (`isCanonicalDuration_seconds_iff`), and they are, except in the one
binade whose doubles are about as far apart as the last places (`writtenSeconds_again`).

**Texts.**  Both together say which texts have a canonical spelling
(`isCanonicalDuration_canonicalizeDurations_iff`).
-/

namespace AtomicStyle.Css

open Text Binary64

/-! ## Doubles of durations -/

/-- The milliseconds of a duration are a double, or too many. -/
lemma milliseconds_cases (d : Decimal) (unit : List Char) :
    (milliseconds d unit).isFinite = false ∨
      ∃ b m q, milliseconds d unit = .finite b m q ∧ IsDouble m q := by
  have hpow : 0 < Nat.pow 10 d.places := Nat.pow_pos (by decide)
  rw [milliseconds]
  cases hd : d.toBinary64 with
  | infinite b =>
      left
      split_ifs <;> rfl
  | nan =>
      left
      split_ifs <;> rfl
  | finite b m q =>
      split_ifs
      · cases hx : (finite b m q).scale 1000 1 with
        | infinite b => exact Or.inl rfl
        | nan => exact Or.inl rfl
        | finite b' m' q' =>
            have hdenominator := Nat.mul_pos (dyadic_pos m q) Nat.one_pos
            exact Or.inr ⟨b', m', q', rfl, isDouble_of_ofRatio_eq hdenominator hx⟩
      · exact Or.inr ⟨b, m, q, rfl, isDouble_of_ofRatio_eq hpow hd⟩

lemma milliseconds_seconds (d : Decimal) :
    milliseconds d ['s'] = d.toBinary64.scale 1000 1 := rfl

/-! ## What is written -/

/-- The seconds that are written for a double of milliseconds. -/
def writtenSeconds (x : Binary64) : Binary64 :=
  (x.scale 1 1000).roundPlaces Numeric.places

/-- The text of a number depends on its places only. -/
lemma formatFloat_congr {x x' : Binary64}
    (h : x.roundPlaces Numeric.places = x'.roundPlaces Numeric.places) :
    Numeric.formatFloat x = Numeric.formatFloat x' := by
  rw [Numeric.formatFloat, h, Numeric.formatFloat]

section

variable {b : Bool} {m ms my mx u : ℕ} {q qs qy qx : ℤ} {x : Binary64} {behind : List Char}

lemma scale_seconds_iff :
    (finite b m q).scale 1 1000 = .finite b ms qs ↔ Rounds (value m q / 1000) ms qs := by
  rw [scale_eq_finite_iff (by decide), Nat.cast_one, mul_one, Nat.cast_ofNat]

lemma scale_milliseconds_iff :
    (finite b m q).scale 1000 1 = .finite b mx qx ↔ Rounds (value m q * 1000) mx qx := by
  rw [scale_eq_finite_iff (by decide), Nat.cast_one, div_one, Nat.cast_ofNat]

/-- The text of a number with a unit behind it is a duration. -/
lemma exists_isDurationText_formatFloat {unit : List Char}
    (hx : x.roundPlaces Numeric.places = .finite b my qy) (hy : Rounds ((u : ℚ) / 10 ^ 4) my qy)
    (hu : 0 < u) (hunit : unit = ['m', 's'] ∨ unit = ['s']) (hend : behind = [] ∨ behind = ['\n']) :
    ∃ d, IsDurationText (Numeric.formatFloat x ++ unit ++ behind) d unit behind ∧
      d.toBinary64 = .finite b my qy := by
  have hletters : isDigit 'm' = false ∧ isDigit 's' = false := by decide
  have hrest : readDigits (unit ++ behind) = ([], unit ++ behind) ∧
      (unit ++ behind).head? ≠ some '.' ∧
        (unit.map foldChar = ['m', 's'] ∨ unit.map foldChar = ['s']) := by
    rcases hunit with rfl | rfl
    · exact ⟨readDigits_of_not_isDigit hletters.1, by simp, Or.inl (by decide)⟩
    · exact ⟨readDigits_of_not_isDigit hletters.2, by simp, Or.inr (by decide)⟩
  obtain ⟨d, hread, hd⟩ := exists_read?_formatFloat hx hy hu hrest.1 hrest.2.1
  refine ⟨d, ⟨?_, hrest.2.2, hend⟩, hd⟩
  rw [List.append_assoc, hread]

lemma formatMilliseconds_seconds (h : 10 ≤ value m q) :
    formatMilliseconds (.finite b m q) =
      Numeric.formatFloat ((finite b m q).scale 1 1000) ++ ['s'] := by
  have hzero : (finite b m q).isZero = false := by
    refine Bool.eq_false_iff.mpr fun hzero => ?_
    rw [isZero_finite_iff.mp hzero, value, Nat.cast_zero, zero_mul] at h
    norm_num at h
  have hlarge : (finite b m q).magnitudeAtLeast secondsFrom = true :=
    magnitudeAtLeast_finite_iff.mpr h
  rw [formatMilliseconds, hzero, hlarge, if_neg Bool.false_ne_true, if_pos rfl]

lemma formatMilliseconds_milliseconds (hm : m ≠ 0) (h : value m q < 10) :
    formatMilliseconds (.finite b m q) = Numeric.formatFloat (.finite b m q) ++ ['m', 's'] := by
  have hzero : (finite b m q).isZero = false :=
    Bool.eq_false_iff.mpr fun hzero => hm (isZero_finite_iff.mp hzero)
  have hsmall : (finite b m q).magnitudeAtLeast secondsFrom = false :=
    Bool.eq_false_iff.mpr fun hlarge => h.not_ge (magnitudeAtLeast_finite_iff.mp hlarge)
  rw [formatMilliseconds, hzero, hsmall, if_neg Bool.false_ne_true, if_neg Bool.false_ne_true]

/-- Ten milliseconds and more are written in seconds, and are ten milliseconds and more when they
are read. -/
lemma exists_written (b : Bool) (h : IsDouble m q) (hlarge : 10 ≤ value m q) :
    ∃ (u my : ℕ) (qy : ℤ) (mx : ℕ) (qx : ℤ),
      writtenSeconds (.finite b m q) = .finite b my qy ∧ Rounds ((u : ℚ) / 10 ^ 4) my qy ∧ 0 < u ∧
        (finite b my qy).scale 1000 1 = .finite b mx qx ∧ IsDouble mx qx ∧ 10 ≤ value mx qx := by
  obtain ⟨ms, qs, hs⟩ := exists_rounds_seconds h
  obtain ⟨my, qy, hy⟩ := exists_rounds_places hs.double
  obtain ⟨mx, qx, hx⟩ := exists_rounds_milliseconds h hs hy
  have hhundredth := hundredth_le hlarge hs hy
  refine ⟨_, my, qy, mx, qx, ?_, hy, ?_, scale_milliseconds_iff.mpr hx, hx.double, ?_⟩
  · rw [writtenSeconds, scale_seconds_iff.mpr hs]
    exact roundPlaces_eq_finite_iff.mpr hy
  · refine Nat.pos_of_ne_zero fun hzero => ?_
    rw [hzero, Nat.cast_zero, zero_div] at hy
    rw [(rounds_zero_iff.mp hy).1, value, Nat.cast_zero, zero_mul] at hhundredth
    norm_num at hhundredth
  · refine hx.ge_of_ge ⟨10, 0, by norm_num, by decide, by rw [value]; norm_num⟩ ?_
    linarith

/-- Seconds with one text are one double. -/
lemma writtenSeconds_eq_of_formatMilliseconds_eq {b' : Bool} {m' : ℕ} {q' : ℤ} (h : IsDouble m q)
    (hlarge : 10 ≤ value m q) (h' : IsDouble m' q') (hlarge' : 10 ≤ value m' q')
    (heq : formatMilliseconds (.finite b m q) = formatMilliseconds (.finite b' m' q')) :
    writtenSeconds (.finite b m q) = writtenSeconds (.finite b' m' q') := by
  obtain ⟨u, my, qy, -, -, hwritten, hy, hu, -⟩ := exists_written b h hlarge
  obtain ⟨u', my', qy', -, -, hwritten', hy', hu', -⟩ := exists_written b' h' hlarge'
  have hnothing : readDigits [] = ([], []) := rfl
  obtain ⟨d, hread, hd⟩ := exists_read?_formatFloat hwritten hy hu hnothing nofun
  obtain ⟨d', hread', hd'⟩ := exists_read?_formatFloat hwritten' hy' hu' hnothing nofun
  rw [formatMilliseconds_seconds hlarge, formatMilliseconds_seconds hlarge',
    List.append_left_inj] at heq
  rw [heq, hread', Option.some.injEq, Prod.mk.injEq] at hread
  rw [hwritten, hwritten', ← hd, ← hd', hread.1]

/-! ## Reading back -/

lemma exists_isDurationText_zero (hend : behind = [] ∨ behind = ['\n']) :
    ∃ d, IsDurationText (['0', 's'] ++ behind) d ['s'] behind ∧
      milliseconds d ['s'] = zero false := by
  refine ⟨{ coefficient := 0, places := 0 }, ⟨?_, Or.inr (by decide), hend⟩, rfl⟩
  rcases hend with rfl | rfl <;> decide

/-- What is written in seconds is read as the milliseconds of those seconds. -/
lemma exists_isDurationText_seconds (b : Bool) (h : IsDouble m q) (hlarge : 10 ≤ value m q)
    (hend : behind = [] ∨ behind = ['\n']) :
    ∃ d mx qx, IsDurationText (formatMilliseconds (.finite b m q) ++ behind) d ['s'] behind ∧
      milliseconds d ['s'] = .finite b mx qx ∧
        (writtenSeconds (.finite b m q)).scale 1000 1 = .finite b mx qx ∧
          IsDouble mx qx ∧ 10 ≤ value mx qx := by
  obtain ⟨u, my, qy, mx, qx, hwritten, hy, hu, hx, hdouble, hlarge'⟩ := exists_written b h hlarge
  obtain ⟨d, htext, hd⟩ := exists_isDurationText_formatFloat hwritten hy hu (Or.inr rfl) hend
  rw [formatMilliseconds_seconds hlarge, hwritten]
  exact ⟨d, mx, qx, htext, by rw [milliseconds_seconds, hd, hx], hx, hdouble, hlarge'⟩

/-- What is written in milliseconds is read as what the four places leave, up to the sign of a
zero. -/
lemma exists_isDurationText_milliseconds (b : Bool) (h : IsDouble m q) (hm : m ≠ 0)
    (hsmall : value m q < 10) (hend : behind = [] ∨ behind = ['\n']) :
    ∃ d my qy, IsDurationText (formatMilliseconds (.finite b m q) ++ behind) d ['m', 's'] behind ∧
      (finite b m q).roundPlaces Numeric.places = .finite b my qy ∧
        (my = 0 ∧ milliseconds d ['m', 's'] = zero false ∨
          milliseconds d ['m', 's'] = .finite b my qy ∧
            (finite b my qy).roundPlaces Numeric.places = .finite b my qy) := by
  obtain ⟨my, qy, hy⟩ := exists_rounds_places h
  have hx : (finite b m q).roundPlaces Numeric.places = .finite b my qy :=
    roundPlaces_eq_finite_iff.mpr hy
  rw [formatMilliseconds_milliseconds hm hsmall, hx]
  rcases Nat.eq_zero_or_pos (unitsAtPlaces m q 4) with hzero | hu
  · -- no unit is left, and zero is written without a sign
    rw [hzero, Nat.cast_zero, zero_div] at hy
    obtain ⟨rfl, rfl⟩ := rounds_zero_iff.mp hy
    have hwhole : ∀ b : Bool, (finite b 0 minExponent).toInt? = some 0 := by decide +kernel
    have htext : Numeric.formatFloat (.finite b m q) = ['0'] := by
      rw [Numeric.formatFloat, hx, hwhole]
      rfl
    rw [htext]
    refine ⟨{ coefficient := 0, places := 0 }, 0, minExponent,
      ⟨?_, Or.inl (by decide), hend⟩, rfl, Or.inl ⟨rfl, rfl⟩⟩
    rcases hend with rfl | rfl <;> decide
  · obtain ⟨d, htext, hd⟩ := exists_isDurationText_formatFloat hx hy hu (Or.inl rfl) hend
    refine ⟨d, my, qy, htext, rfl, Or.inr ⟨hd, roundPlaces_eq_finite_iff.mpr ?_⟩⟩
    have hunits := unitsAtPlaces_le (k := 10) hsmall.le
    rw [Numeric.places, hy.unitsAtPlaces_eq (hunits.trans (by norm_num))]
    exact hy

end

/-! ## Canonical spellings -/

/-- A canonical duration is a duration, is not spelled otherwise by canonicalizing, and is written
in milliseconds only when there are some, and fewer than are written in seconds. -/
structure IsCanonicalDuration (text : List Char) : Prop where
  matched : isDuration text = true
  fixed : canonicalizeDurations text = text
  below : isInMilliseconds text = true →
    ∃ x, durationOf? text = some x ∧ x.isZero = false ∧ x.magnitudeAtLeast secondsFrom = false

/-- Whether four decimal places keep a double of milliseconds on its side of the limit and, where it
is written in seconds, give the same seconds when these are read and written again. -/
def Settles (x : Binary64) : Prop :=
  x.isZero = true ∨
    if x.magnitudeAtLeast secondsFrom then
      writtenSeconds ((writtenSeconds x).scale 1000 1) = writtenSeconds x
    else
      (x.roundPlaces Numeric.places).isZero = false ∧
        (x.roundPlaces Numeric.places).magnitudeAtLeast secondsFrom = false

section

variable {b : Bool} {m : ℕ} {q : ℤ} {behind : List Char}

/-- What is not finite is not written as a duration. -/
lemma isDuration_of_not_isFinite {x : Binary64} (hx : x.isFinite = false)
    (hend : behind = [] ∨ behind = ['\n']) :
    isDuration (formatMilliseconds x ++ behind) = false := by
  have hinfinite : ∀ b : Bool, isDuration (formatMilliseconds (.infinite b)) = false ∧
      isDuration (formatMilliseconds (.infinite b) ++ ['\n']) = false := by decide
  have hnan : isDuration (formatMilliseconds .nan) = false ∧
      isDuration (formatMilliseconds .nan ++ ['\n']) = false := by decide
  cases x with
  | finite b m q => cases hx
  | infinite b =>
      rcases hend with rfl | rfl
      · rw [List.append_nil, (hinfinite b).1]
      · exact (hinfinite b).2
  | nan =>
      rcases hend with rfl | rfl
      · rw [List.append_nil, hnan.1]
      · exact hnan.2

/-- What is finite is written as a duration. -/
lemma isDuration_of_isDouble (b : Bool) (h : IsDouble m q) (hend : behind = [] ∨ behind = ['\n']) :
    isDuration (formatMilliseconds (.finite b m q) ++ behind) = true := by
  by_cases hm : m = 0
  · rw [formatMilliseconds, if_pos (isZero_finite_iff.mpr hm)]
    obtain ⟨d, htext, -⟩ := exists_isDurationText_zero hend
    exact htext.isDuration
  rcases le_or_gt 10 (value m q) with hlarge | hsmall
  · obtain ⟨d, -, -, htext, -⟩ := exists_isDurationText_seconds b h hlarge hend
    exact htext.isDuration
  · obtain ⟨d, -, -, htext, -⟩ := exists_isDurationText_milliseconds b h hm hsmall hend
    exact htext.isDuration

lemma isCanonicalDuration_zero (hend : behind = [] ∨ behind = ['\n']) :
    IsCanonicalDuration (['0', 's'] ++ behind) := by
  obtain ⟨d, htext, hd⟩ := exists_isDurationText_zero hend
  refine ⟨htext.isDuration, ?_, fun hin => ?_⟩
  · rw [htext.canonicalizeDurations_eq, hd]
    rfl
  · exact absurd (htext.isInMilliseconds_iff.mp hin) (by decide)

/-- From ten milliseconds on, a duration is canonical if its seconds settle. -/
lemma isCanonicalDuration_seconds_iff (h : IsDouble m q) (hlarge : 10 ≤ value m q)
    (hend : behind = [] ∨ behind = ['\n']) :
    IsCanonicalDuration (formatMilliseconds (.finite b m q) ++ behind) ↔
      writtenSeconds ((writtenSeconds (.finite b m q)).scale 1000 1) =
        writtenSeconds (.finite b m q) := by
  obtain ⟨d, mx, qx, htext, hmilliseconds, hread, hdouble, hlarge'⟩ :=
    exists_isDurationText_seconds b h hlarge hend
  have hagain := htext.canonicalizeDurations_eq
  rw [hmilliseconds] at hagain
  rw [hread]
  constructor
  · intro hcanonical
    have hfixed := hcanonical.fixed
    rw [hagain, List.append_left_inj] at hfixed
    exact writtenSeconds_eq_of_formatMilliseconds_eq hdouble hlarge' h hlarge hfixed
  · intro hsettled
    refine ⟨htext.isDuration, ?_, fun hin => ?_⟩
    · rw [hagain, formatMilliseconds_seconds hlarge', formatFloat_congr hsettled,
        ← formatMilliseconds_seconds hlarge]
    · exact absurd (htext.isInMilliseconds_iff.mp hin) (by decide)

/-- Below ten milliseconds, a duration is canonical if four places make neither zero nor ten of
it. -/
lemma isCanonicalDuration_milliseconds_iff (h : IsDouble m q) (hm : m ≠ 0)
    (hsmall : value m q < 10) (hend : behind = [] ∨ behind = ['\n']) :
    IsCanonicalDuration (formatMilliseconds (.finite b m q) ++ behind) ↔
      ((finite b m q).roundPlaces Numeric.places).isZero = false ∧
        ((finite b m q).roundPlaces Numeric.places).magnitudeAtLeast secondsFrom = false := by
  obtain ⟨d, my, qy, htext, hx, hread⟩ := exists_isDurationText_milliseconds b h hm hsmall hend
  rw [hx]
  constructor
  · intro hcanonical
    obtain ⟨x, hduration, hsides⟩ := hcanonical.below (htext.isInMilliseconds_iff.mpr (by decide))
    rw [htext.durationOf?_eq, Option.some_inj] at hduration
    rw [← hduration] at hsides
    rcases hread with ⟨-, hzero⟩ | ⟨hmilliseconds, -⟩
    · rw [hzero] at hsides
      cases hsides.1
    · rwa [hmilliseconds] at hsides
  · rintro ⟨hnonzero, hbelow⟩
    have hmy : my ≠ 0 := fun hmy => by
      rw [isZero_finite_iff.mpr hmy] at hnonzero
      cases hnonzero
    have hsmall' : value my qy < 10 := by
      refine not_le.mp fun hlarge => ?_
      have hlarge' : (finite b my qy).magnitudeAtLeast secondsFrom = true :=
        magnitudeAtLeast_finite_iff.mpr hlarge
      rw [hlarge'] at hbelow
      cases hbelow
    obtain ⟨hmilliseconds, hagain⟩ := hread.resolve_left fun hzero => hmy hzero.1
    refine ⟨htext.isDuration, ?_, fun _ => ⟨_, htext.durationOf?_eq, ?_⟩⟩
    · rw [htext.canonicalizeDurations_eq, hmilliseconds,
        formatMilliseconds_milliseconds hmy hsmall', formatFloat_congr (hagain.trans hx.symm),
        ← formatMilliseconds_milliseconds hm hsmall]
    · rw [hmilliseconds]
      exact ⟨hnonzero, hbelow⟩

/-- Seconds are written again, unless they are between `2^38` and `2^39`. -/
lemma writtenSeconds_again (b : Bool) (h : IsDouble m q)
    (hband : value m q ≤ 1000 * 2 ^ 38 ∨ 1000 * 2 ^ 39 ≤ value m q) :
    writtenSeconds ((writtenSeconds (.finite b m q)).scale 1000 1) =
      writtenSeconds (.finite b m q) := by
  obtain ⟨ms, qs, hs⟩ := exists_rounds_seconds h
  obtain ⟨my, qy, hy⟩ := exists_rounds_places hs.double
  obtain ⟨mx, qx, hx⟩ := exists_rounds_milliseconds h hs hy
  obtain ⟨mt, qt, ht⟩ := exists_rounds_seconds hx.double
  have hwritten : writtenSeconds (.finite b m q) = .finite b my qy := by
    rw [writtenSeconds, scale_seconds_iff.mpr hs]
    exact roundPlaces_eq_finite_iff.mpr hy
  rw [hwritten, scale_milliseconds_iff.mpr hx, writtenSeconds, scale_seconds_iff.mpr ht]
  exact roundPlaces_eq_finite_iff.mpr (hs.places_again h hy hx ht hband)

/-- A finite double is written canonically if it settles. -/
lemma isCanonicalDuration_formatMilliseconds_iff (h : IsDouble m q)
    (hend : behind = [] ∨ behind = ['\n']) :
    IsCanonicalDuration (formatMilliseconds (.finite b m q) ++ behind) ↔
      Settles (.finite b m q) := by
  by_cases hm : m = 0
  · have hzero : (finite b m q).isZero = true := isZero_finite_iff.mpr hm
    rw [formatMilliseconds, if_pos hzero]
    exact iff_of_true (isCanonicalDuration_zero hend) (Or.inl hzero)
  · rw [Settles, isZero_finite_iff, or_iff_right hm]
    split_ifs with hlarge
    · exact isCanonicalDuration_seconds_iff h (magnitudeAtLeast_finite_iff.mp hlarge) hend
    · refine isCanonicalDuration_milliseconds_iff h hm (not_le.mp fun hten => hlarge ?_) hend
      exact magnitudeAtLeast_finite_iff.mpr hten

end

/-- **Canonical durations.**  A text that is a duration has milliseconds, in whatever unit they are
spelled.  None at all are written as no seconds.  What is written is a duration exactly when they
are finite, and canonical exactly when they also settle.  Everything that is written in seconds
settles, except between `2^38` and `2^39` seconds. -/
theorem isCanonicalDuration_canonicalizeDurations_iff {text : List Char}
    (h : isDuration text = true) :
    ∃ x, durationOf? text = some x ∧
      (x.isZero = true → canonicalizeDurations text = ['0', 's'] ++ finalBreak text) ∧
      (isDuration (canonicalizeDurations text) = true ↔ x.isFinite = true) ∧
      (IsCanonicalDuration (canonicalizeDurations text) ↔ x.isFinite = true ∧ Settles x) ∧
      (x.isFinite = true → x.magnitudeAtLeast secondsFrom = true →
        x.magnitudeAtLeast (1000 * 2 ^ 38) = false ∨ x.magnitudeAtLeast (1000 * 2 ^ 39) = true →
          Settles x) := by
  obtain ⟨d, unit, behind, htext⟩ := exists_isDurationText h
  refine ⟨_, htext.durationOf?_eq, fun hzero => ?_, ?_⟩
  · rw [htext.canonicalizeDurations_eq, htext.finalBreak_eq, formatMilliseconds, if_pos hzero]
  rw [htext.canonicalizeDurations_eq]
  rcases milliseconds_cases d unit with hinfinite | ⟨b, m, q, hx, hdouble⟩
  · have hfinite : ¬(milliseconds d unit).isFinite = true := Bool.eq_false_iff.mp hinfinite
    have hunmatched := Bool.eq_false_iff.mp (isDuration_of_not_isFinite hinfinite htext.isEnd)
    exact ⟨iff_of_false hunmatched hfinite,
      iff_of_false (fun hcanonical => hunmatched hcanonical.matched) fun h => hfinite h.1,
      fun h => absurd h hfinite⟩
  · rw [hx, isCanonicalDuration_formatMilliseconds_iff hdouble htext.isEnd]
    refine ⟨iff_of_true (isDuration_of_isDouble b hdouble htext.isEnd) rfl,
      (and_iff_right rfl).symm, fun _ hlarge hband => Or.inr ?_⟩
    rw [if_pos hlarge]
    refine writtenSeconds_again b hdouble (hband.imp (fun hsmall => ?_) fun hover => ?_)
    · rw [← Bool.not_eq_true, magnitudeAtLeast_finite_iff, not_le] at hsmall
      exact_mod_cast hsmall.le
    · rw [magnitudeAtLeast_finite_iff] at hover
      exact_mod_cast hover

/-- Half a second settles.  A little less than ten milliseconds is rounded to ten, and those are
written in milliseconds. -/
theorem isCanonicalDuration_of_half_second_not_below_ten :
    isDuration "500ms".toList = true ∧ isDuration "9.99999ms".toList = true ∧
      IsCanonicalDuration (canonicalizeDurations "500ms".toList) ∧
        canonicalizeDurations "9.99999ms".toList = "10ms".toList ∧
          ¬IsCanonicalDuration (canonicalizeDurations "9.99999ms".toList) := by
  have hhalf : isDuration "500ms".toList = true := by decide
  have hten : isDuration "9.99999ms".toList = true := by decide
  refine ⟨hhalf, hten, ?_, by decide +kernel, ?_⟩
  · obtain ⟨x, hx, -, -, hcanonical, hsettles⟩ :=
      isCanonicalDuration_canonicalizeDurations_iff hhalf
    have hvalue : durationOf? "500ms".toList = some (.finite false 8796093022208000 (-44)) := by
      decide +kernel
    obtain rfl := Option.some.inj (hvalue.symm.trans hx)
    exact hcanonical.mpr ⟨rfl, hsettles rfl (by decide +kernel) (Or.inl (by decide +kernel))⟩
  · obtain ⟨x, hx, -, -, hcanonical, -⟩ := isCanonicalDuration_canonicalizeDurations_iff hten
    have hvalue : durationOf? "9.99999ms".toList = some (.finite false 5629493904713586 (-49)) := by
      decide +kernel
    obtain rfl := Option.some.inj (hvalue.symm.trans hx)
    have hunsettled : ¬Settles (.finite false 5629493904713586 (-49)) := by
      unfold Settles
      decide +kernel
    exact fun h => hunsettled (hcanonical.mp h).2

end AtomicStyle.Css
