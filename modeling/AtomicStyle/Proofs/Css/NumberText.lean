import AtomicStyle.Css.Duration
import AtomicStyle.Proofs.Css.Standing
import AtomicStyle.Proofs.Number.Numeral
import AtomicStyle.Proofs.Outcome
import AtomicStyle.Proofs.Text.Line

/-!
# The characters of a number's text

Whatever layout a number gets in a style sheet, it consists of ASCII letters and digits, points and
signs (`isNumeral_format`, `isNumeral_formatDuration`).  None of these ends a declaration, opens
anything (`IsNumeral.inert`) or breaks a line (`IsNumeral.isLine`).
-/

namespace AtomicStyle.Css

open Text

/-! ## Numerals -/

/-- Whether the character may stand in the text of a number: an ASCII letter or digit, a point or a
sign. -/
def isNumeralChar (c : Char) : Bool :=
  c.isAlphanum || c == '.' || c == '+' || c == '-'

/-- A text of such characters. -/
def IsNumeral (text : List Char) : Prop :=
  ∀ c ∈ text, isNumeralChar c = true

instance (text : List Char) : Decidable (IsNumeral text) :=
  List.decidableBAll _ text

@[simp] lemma isNumeral_cons {c : Char} {text : List Char} :
    IsNumeral (c :: text) ↔ isNumeralChar c = true ∧ IsNumeral text := by simp [IsNumeral]

@[simp] lemma isNumeral_append {a b : List Char} :
    IsNumeral (a ++ b) ↔ IsNumeral a ∧ IsNumeral b := by
  simp [IsNumeral, or_imp, forall_and]

/-- A numeral is inert. -/
lemma IsNumeral.inert {text : List Char} (h : IsNumeral text) : Inert text := by
  have hmarkers : markers.any isNumeralChar = false := by decide
  exact fun c hc => isInert_of_any_markers hmarkers (h c hc)

/-- A numeral is a line. -/
lemma IsNumeral.isLine {text : List Char} (h : IsNumeral text) : IsLine text :=
  fun hbreak => absurd (h _ hbreak) (by decide)

/-! ## Layouts -/

lemma isNumeral_decimal (n : Nat) : IsNumeral (Numeral.decimal n) := by
  have hchar : ∀ d < 10, isNumeralChar (Numeral.digitChar d) = true := by decide
  intro c hc
  obtain ⟨d, hd, rfl⟩ := Numeral.exists_digit_of_mem_encode (by omega) hc
  exact hchar d hd

lemma isNumeral_signed (n : Int) : IsNumeral (Numeral.signed n) := by
  cases n with
  | ofNat n => exact isNumeral_decimal n
  | negSucc n => exact isNumeral_cons.mpr ⟨rfl, isNumeral_decimal (n + 1)⟩

lemma isNumeral_replicate {c : Char} (hc : isNumeralChar c = true) (n : Nat) :
    IsNumeral (List.replicate n c) := by
  intro d hd
  rwa [List.eq_of_mem_replicate hd]

/-- Setting a point adds zeros and the point. -/
lemma isNumeral_positional {ds : List Char} (h : IsNumeral ds) (point : Int) :
    IsNumeral (Layout.positional ds point) := by
  have hzeros : ∀ n, IsNumeral (List.replicate n '0') := isNumeral_replicate rfl
  rw [Layout.positional]
  dsimp only
  split_ifs
  · exact isNumeral_append.mpr ⟨isNumeral_cons.mpr ⟨rfl, isNumeral_cons.mpr ⟨rfl, hzeros _⟩⟩, h⟩
  · exact isNumeral_append.mpr ⟨isNumeral_append.mpr ⟨h, hzeros _⟩, by decide⟩
  · refine isNumeral_append.mpr ⟨fun c hc => h c (List.mem_of_mem_take hc), ?_⟩
    exact isNumeral_cons.mpr ⟨rfl, fun c hc => h c (List.mem_of_mem_drop hc)⟩

/-- An exponent adds its letter, a sign and digits. -/
lemma isNumeral_exponential {ds : List Char} (h : IsNumeral ds) (exponent : Int) :
    IsNumeral (Layout.exponential ds exponent) := by
  have hmagnitude := isNumeral_decimal exponent.natAbs
  unfold Layout.exponential
  refine isNumeral_append.mpr ⟨?_, isNumeral_cons.mpr ⟨rfl, isNumeral_cons.mpr ⟨?_, ?_⟩⟩⟩
  · split
    · obtain ⟨hd, hrest⟩ := isNumeral_cons.mp h
      exact isNumeral_cons.mpr ⟨hd, isNumeral_cons.mpr ⟨rfl, hrest⟩⟩
    · exact h
  · split_ifs <;> rfl
  · split_ifs
    · exact isNumeral_cons.mpr ⟨rfl, hmagnitude⟩
    · exact hmagnitude

lemma isNumeral_magnitude (m : Nat) (q : Int) : IsNumeral (Layout.magnitude m q) := by
  rw [Layout.magnitude]
  dsimp only
  split_ifs
  · exact isNumeral_positional (isNumeral_decimal _) _
  · exact isNumeral_exponential (isNumeral_decimal _) _

/-- A double is a numeral however it is laid out, the infinite and undefined ones included. -/
lemma isNumeral_float (x : Binary64) : IsNumeral (Layout.float x) := by
  have hsign : ∀ negative : Bool, IsNumeral (if negative then ['-'] else []) := by decide
  cases x with
  | finite negative m q =>
      refine isNumeral_append.mpr ⟨hsign negative, ?_⟩
      split_ifs
      · decide
      · exact isNumeral_magnitude m q
  | infinite negative => exact isNumeral_append.mpr ⟨hsign negative, by decide⟩
  | nan => decide

/-! ## Style sheets -/

lemma isNumeral_formatFloat (x : Binary64) : IsNumeral (Numeric.formatFloat x) := by
  rw [Numeric.formatFloat]
  split
  · exact isNumeral_signed _
  · exact isNumeral_float _

theorem isNumeral_format {n : Numeric} {text : List Char} (h : n.format = .ok text) :
    IsNumeral text := by
  cases n with
  | int n =>
      rw [Numeric.format] at h
      split_ifs at h
      · obtain rfl := Except.ok.inj h
        exact isNumeral_signed n
      · exact absurd h (fault_ne_ok _ _)
  | float x =>
      obtain rfl := Except.ok.inj h
      exact isNumeral_formatFloat x

lemma isNumeral_formatMilliseconds (x : Binary64) : IsNumeral (formatMilliseconds x) := by
  rw [formatMilliseconds]
  split_ifs
  · decide
  · exact isNumeral_append.mpr ⟨isNumeral_formatFloat _, by decide⟩
  · exact isNumeral_append.mpr ⟨isNumeral_formatFloat _, by decide⟩

theorem isNumeral_formatDuration {n : Numeric} {text : List Char}
    (h : n.formatDuration = .ok text) : IsNumeral text := by
  cases n with
  | int n =>
      rw [Numeric.formatDuration] at h
      split_ifs at h
      · obtain rfl := Except.ok.inj h
        decide
      · split at h
        · exact absurd h (fault_ne_ok _ _)
        · obtain rfl := Except.ok.inj h
          exact isNumeral_append.mpr ⟨isNumeral_formatFloat _, by decide⟩
      · obtain rfl := Except.ok.inj h
        exact isNumeral_append.mpr ⟨isNumeral_signed n, by decide⟩
  | float x =>
      obtain rfl := Except.ok.inj h
      exact isNumeral_formatMilliseconds x

end AtomicStyle.Css
