import AtomicStyle.Proofs.Css.Mark
import AtomicStyle.Proofs.Css.NumberReading
import AtomicStyle.Proofs.Property.ValueText

/-!
# Canonical texts

The canonical text of a value may be given again as a value of the same property.  It is then
accepted as it is.

**Bodies.**  The body of a tidy text is tidy, and so is what it is adapted to.  Putting a mark
behind it and tidying the result gives a text with the same body and the same mark
(`splitImportance_tidy_attachImportance`).

**Texts.**  Adapting a body that was adapted changes nothing: generated content that was quoted is
quoted already (`adaptBody_adaptBody`).  So a canonical text is its own canonical text
(`stringText_stringText`).  Two kinds of properties are left out.  The names in a list of properties
and the numbers of durations are read anew, and may come out differently.

**Integers.**  An integer is written without any mark or blank, so its text is one component, and of
the domain that the integer was accepted for (`stringText_numberText`).
-/

namespace AtomicStyle.Property

open Css Text

/-! ## Bodies -/

lemma isTidy_splitImportance {text : List Char} (h : IsTidy text) :
    IsTidy (splitImportance text).1 := by
  rcases splitImportance_cases text with ⟨mark, htext, _, hend, _⟩ | ⟨hsplit, _⟩
  · rw [htext] at h
    exact h.of_append hend
  · rwa [hsplit]

/-- A tidy body and its mark are found again in what they are put together to.  A body without a
mark must not end in one. -/
theorem splitImportance_tidy_attachImportance {body : List Char} {important : Bool}
    (hbody : IsTidy body)
    (hplain : important = false → body ≠ [] ∧ splitImportance body = (body, false)) :
    tidy (attachImportance body important) ≠ [] ∧
      splitImportance (tidy (attachImportance body important)) = (body, important) ∧
        trim (attachImportance body important) = tidy (attachImportance body important) := by
  cases important with
  | false =>
      obtain ⟨hne, hsplit⟩ := hplain rfl
      rw [attachImportance_false, hbody.tidy_eq]
      exact ⟨hne, hsplit, trim_eq_self hbody.first hbody.last⟩
  | true =>
      by_cases hne : body = []
      · subst hne
        decide
      · have hmark : IsTidy importantMark := ⟨by decide, by decide, by decide⟩
        have htidy : IsTidy (attachImportance body true) :=
          hbody.append_space hmark hne (by simp [importantMark])
        rw [htidy.tidy_eq]
        exact ⟨by simp [attachImportance], splitImportance_attachImportance hbody.last,
          trim_eq_self htidy.first htidy.last⟩

/-! ## Generated content -/

/-- Escaping the double quotes goes along with collapsing the blanks. -/
lemma collapseFrom_flatMap_escape (inRun : Bool) (body : List Char) :
    collapseFrom inRun (body.flatMap fun c => if c = '"' then ['\\', '"'] else [c]) =
      (collapseFrom inRun body).flatMap fun c => if c = '"' then ['\\', '"'] else [c] := by
  induction body generalizing inRun with
  | nil => rfl
  | cons c cs ih =>
      by_cases hquote : c = '"'
      · subst hquote
        have hblank : isBlank '"' = false ∧ isBlank '\\' = false := by decide
        simp [collapseFrom, hblank, ih]
      · cases hc : isBlank c <;> cases inRun <;> simp [collapseFrom, hquote, hc, ih]

lemma isTidy_quoteBody {body : List Char} (h : IsTidy body) : IsTidy (quoteBody body) := by
  have hquote : isBlank '"' = false := by decide
  refine ⟨hquote, ?_, ?_⟩
  · rw [quoteBody, endsBlank_concat, hquote]
  · have hlast : ∀ inRun, collapseFrom inRun ['"'] = ['"'] := by decide
    have hbody := collapseFrom_flatMap_escape false body
    rw [← collapse, ← collapse, h.collapsed] at hbody
    rw [quoteBody, collapse, collapseFrom_append, hlast, collapseFrom, hquote, ← collapse]
    simp only [Bool.false_eq_true, if_false, hbody]

/-- Generated content stands as it is, or is quoted; and then it stands as it is. -/
lemma contentBody_cases {body adapted : List Char} (h : contentBody body = .ok adapted) :
    contentBody adapted = .ok adapted ∧ (adapted = body ∨ adapted = quoteBody body) := by
  have hquoted : contentBody (quoteBody body) = .ok (quoteBody body) := by
    unfold contentBody
    split_ifs
    · rfl
    · rw [quoteBody, List.cons_append]
      simp
  have horiginal := h
  unfold contentBody at h
  split_ifs at h
  · obtain rfl := Except.ok.inj h
    exact ⟨horiginal, Or.inl rfl⟩
  · split at h
    case h_1 => exact absurd h (fault_ne_ok _ _)
    case h_2 =>
        split_ifs at h
        · obtain rfl := Except.ok.inj h
          exact ⟨horiginal, Or.inl rfl⟩
        · obtain rfl := Except.ok.inj h
          exact ⟨hquoted, Or.inr rfl⟩

/-! ## Texts -/

section

variable {strict : Bool} {property : String}

/-- **What a body is adapted to is tidy and adapted**, and ends in no mark if the text did not. -/
theorem adaptBody_adaptBody (hnames : takesPropertyNames property = false)
    (htime : domain? property ≠ some .time) {text body : List Char} (htext : IsTidy text)
    (hne : text ≠ []) (h : adaptBody property (splitImportance text).1 = .ok body) :
    IsTidy body ∧ adaptBody property body = .ok body ∧
      ((splitImportance text).2 = false → body ≠ [] ∧ splitImportance body = (body, false)) := by
  have hplain := isTidy_splitImportance htext
  -- a body that is left alone is the text, unless a mark was cut off
  have hkeep : (splitImportance text).2 = false →
      (splitImportance text).1 ≠ [] ∧
        splitImportance (splitImportance text).1 = ((splitImportance text).1, false) := by
    intro himportant
    rcases splitImportance_cases text with ⟨_, _, _, _, hmark⟩ | ⟨hsplit, _⟩
    · rw [himportant] at hmark
      cases hmark
    · rw [hsplit]
      exact ⟨hne, hsplit⟩
  have hadapt : ∀ b, adaptBody property b =
      if property = "content" then contentBody b else .ok b := by
    intro b
    rw [adaptBody, hnames, if_neg Bool.false_ne_true]
    split_ifs <;> rfl
  rw [hadapt] at h ⊢
  split_ifs at h ⊢ with hcontent
  · obtain ⟨hadapted, rfl | rfl⟩ := contentBody_cases h
    · exact ⟨hplain, hadapted, hkeep⟩
    · refine ⟨isTidy_quoteBody hplain, hadapted, fun _ => ⟨by simp [quoteBody], ?_⟩⟩
      exact splitImportance_concat (by decide) _
  · obtain rfl := Except.ok.inj h
    exact ⟨hplain, rfl, hkeep⟩

/-- **A canonical text is its own canonical text**, for properties that do not read names or
durations in it. -/
theorem stringText_stringText (hnames : takesPropertyNames property = false)
    (htime : domain? property ≠ some .time) {value : String} {text : List Char}
    (h : stringText strict property value = .ok text) :
    stringText strict property (String.ofList text) = .ok text := by
  obtain ⟨hne, body, hbody, hsafe, hstrict, rfl⟩ := stringText_eq_ok.mp h
  obtain ⟨htidy, hadapted, hplain⟩ :=
    adaptBody_adaptBody hnames htime (isTidy_tidy value.toList) hne hbody
  obtain ⟨hne', hsplit, _⟩ := splitImportance_tidy_attachImportance htidy hplain
  rw [stringText_eq_ok, String.toList_ofList, hsplit]
  exact ⟨hne', body, hadapted, hsafe, hstrict, rfl⟩

/-! ## Integers -/

/-- The characters of an integer with its unit. -/
def integerChars : List Char :=
  ['-', '0', '1', '2', '3', '4', '5', '6', '7', '8', '9', 'p', 'x']

lemma mem_integerChars_of_mem_signed {n : Int} {c : Char} (h : c ∈ Numeral.signed n) :
    c ∈ integerChars := by
  have hdigit : ∀ d < 10, Numeral.digitChar d ∈ integerChars := by decide
  have hdecimal : ∀ {m : Nat}, c ∈ Numeral.decimal m → c ∈ integerChars := by
    intro m hc
    obtain ⟨d, hd, rfl⟩ := Numeral.exists_digit_of_mem_encode (by omega) hc
    exact hdigit d hd
  cases n with
  | ofNat n => exact hdecimal h
  | negSucc n =>
      rcases List.mem_cons.mp h with rfl | h
      · decide
      · exact hdecimal h

/-- Without a separator there is one piece, whatever is open in front of it. -/
lemma pieces_eq_singleton {separators text : List Char} (h : ∀ c ∈ text, c ∉ separators)
    (n : Nesting) : pieces separators n text = [text] := by
  induction text generalizing n with
  | nil => rfl
  | cons c cs ih =>
      obtain ⟨hc, hcs⟩ := List.forall_mem_cons.mp h
      simp [pieces, Nesting.separates, hc, ih hcs, Text.consFirst]

/-- **An integer is read back from its numeral**, up to what stands behind it. -/
theorem exists_read?_signed (n : Int) (rest : List Char)
    (hrest : readDigits rest = ([], rest)) (hpoint : rest.head? ≠ some '.') :
    ∃ d, Decimal.read? (Numeral.signed n ++ rest) = some (d, rest) := by
  cases n with
  | ofNat n =>
      obtain ⟨d, hd, -⟩ := exists_readUnsigned?_decimal n hrest hpoint
      exact ⟨_, Decimal.read?_signed false hd⟩
  | negSucc n =>
      obtain ⟨d, hd, -⟩ := exists_readUnsigned?_decimal (n + 1) hrest hpoint
      exact ⟨_, Decimal.read?_signed true hd⟩

lemma isNumber_signed (n : Int) : isNumber (Numeral.signed n) = true := by
  obtain ⟨d, hd⟩ := exists_read?_signed n [] rfl nofun
  rw [List.append_nil] at hd
  rw [isNumber, hd]
  rfl

lemma isDimension_signed (n : Int) : isDimension (Numeral.signed n ++ ['p', 'x']) = true := by
  obtain ⟨d, hd⟩ := exists_read?_signed n ['p', 'x'] (by decide) (by decide)
  have hunit : isOneOfWords dimensionUnits (dropExponent ['p', 'x']) = true := by decide
  rw [isDimension, hd]
  exact hunit

/-- A text of such characters is accepted as it is, if it is a component of the property's
domain. -/
lemma stringText_of_forall (hnames : takesPropertyNames property = false)
    (hcontent : property ≠ "content") (htime : domain? property ≠ some .time) {text : List Char}
    (hne : text ≠ []) (hchars : ∀ c ∈ text, c ∈ integerChars)
    (hcheck : strict = true → ∀ check, componentCheck? property = some check →
      check text = true) :
    stringText strict property (String.ofList text) = .ok text := by
  have hall : ∀ c ∈ integerChars, isBlank c = false ∧ isInert c = true ∧ c ≠ '!' ∧
      c ∉ [' ', '/', ','] := List.forall_iff_forall_mem.mp (by decide)
  have htidy : IsTidy text := isTidy_of_forall fun c hc => (hall c (hchars c hc)).1
  have hinert : Inert text := fun c hc => (hall c (hchars c hc)).2.1
  have hmark : '!' ∉ text := fun hc => (hall _ (hchars _ hc)).2.2.1 rfl
  have hcomponents : components [' ', '/', ','] text = [text] := by
    rw [components, pieces_eq_singleton fun c hc => (hall c (hchars c hc)).2.2.2]
    simp [trim_eq_self htidy.first htidy.last, hne]
  have hadapt : adaptBody property text = .ok text := by
    rw [adaptBody, hnames, if_neg Bool.false_ne_true, if_neg hcontent, if_neg htime]
  rw [stringText_eq_ok, String.toList_ofList, htidy.tidy_eq, splitImportance_of_not_mem hmark]
  refine ⟨hne, text, hadapt, hinert.terminator?_eq_none, fun hstrict => ?_, rfl⟩
  unfold refusedComponent?
  split_ifs
  · rfl
  · split
    case h_1 => rfl
    case h_2 check hcheck' => simp [hcomponents, hcheck hstrict check hcheck']

/-- Which components a value of the property must have. -/
lemma componentCheck?_cases (htime : domain? property ≠ some .time) {check : List Char → Bool}
    (h : componentCheck? property = some check) :
    domain? property = some .length ∧ check = isLengthComponent ∨
      domain? property = some .number ∧ check = isNumberComponent := by
  unfold componentCheck? at h
  split at h
  case h_1 hdomain => exact Or.inl ⟨hdomain, (Option.some.inj h).symm⟩
  case h_2 hdomain => exact absurd hdomain htime
  case h_3 hdomain =>
      split_ifs at h
      exact Or.inr ⟨hdomain, (Option.some.inj h).symm⟩
  case h_4 => cases h

/-- An integer is written as its numeral, which counts pixels where the property takes lengths. -/
lemma eq_of_numberText_int (htime : domain? property ≠ some .time) {n : Int} {text : List Char}
    (h : numberText strict property (.int n) = .ok text) :
    domain? property = some .length ∧ text = Numeral.signed n ++ ['p', 'x'] ∨
      domain? property ≠ some .length ∧ text = Numeral.signed n := by
  obtain ⟨_, plain, hplain, h⟩ := numberText_eq_ok.mp h
  have hsigned : plain = Numeral.signed n := by
    rw [Numeric.format] at hplain
    split_ifs at hplain
    · exact (Except.ok.inj hplain).symm
    · exact absurd hplain (fault_ne_ok _ _)
  subst hsigned
  split at h
  case h_1 hdomain => exact Or.inr ⟨by simp [hdomain], h.symm⟩
  case h_2 hdomain => exact absurd hdomain htime
  case h_3 hdomain => exact Or.inl ⟨hdomain, h.symm⟩
  case h_4 hlength => exact Or.inr ⟨hlength, h.2.symm⟩

lemma signed_ne_nil (n : Int) : Numeral.signed n ≠ [] := by
  cases n with
  | ofNat n => exact Numeral.encode_ne_nil (by decide)
  | negSucc n => exact List.cons_ne_nil _ _

/-- **The text of an integer is its own canonical text.** -/
theorem stringText_numberText (hnames : takesPropertyNames property = false)
    (hcontent : property ≠ "content") (htime : domain? property ≠ some .time) {n : Int}
    {text : List Char} (h : numberText strict property (.int n) = .ok text) :
    stringText strict property (String.ofList text) = .ok text := by
  rcases eq_of_numberText_int htime h with ⟨hlength, rfl⟩ | ⟨hlength, rfl⟩
  · have hchars : ∀ c ∈ Numeral.signed n ++ ['p', 'x'], c ∈ integerChars := by
      have hunit : ∀ c ∈ ['p', 'x'], c ∈ integerChars :=
        List.forall_iff_forall_mem.mp (by decide)
      intro c hc
      exact (List.mem_append.mp hc).elim mem_integerChars_of_mem_signed (hunit c)
    refine stringText_of_forall hnames hcontent htime (by simp) hchars fun _ check hcheck => ?_
    rcases componentCheck?_cases htime hcheck with ⟨_, rfl⟩ | ⟨hnumber, _⟩
    · rw [isLengthComponent, isDimension_signed]
      rfl
    · rw [hlength] at hnumber
      cases hnumber
  · refine stringText_of_forall hnames hcontent htime (signed_ne_nil n)
      (fun c => mem_integerChars_of_mem_signed) fun _ check hcheck => ?_
    rcases componentCheck?_cases htime hcheck with ⟨hdomain, _⟩ | ⟨_, rfl⟩
    · exact absurd hdomain hlength
    · rw [isNumberComponent, isNumber_signed]
      rfl

end

end AtomicStyle.Property
