import AtomicStyle.Proofs.Direction.Likeness

/-!
# Flipping keeps the markers

A text of declarations is read by its semicolons, and the scan by a few characters more.  No flip
touches these: it exchanges side words, moves signs and sets other blanks, and a cursor that has an
opposite is replaced by another word.

**Bodies.**  `markersIn_flipBody` goes through the families of values.

**Counterparts.**  A rendered keyword is inert and so is an importance mark, so that the counterpart
of a declaration has the markers of the declaration (`markersIn_counterpart`).
-/

namespace AtomicStyle

open Css Text Property

/-! ## Lower case -/

/-- A character of ASCII that is no capital is found again in lower case. -/
lemma mem_lowerFrom_of_mem {c : Char} (hascii : c.toNat < 0x80) (hlower : c.toLower = c)
    {text : List Char} (h : c ∈ text) (afterCased : Bool) : c ∈ lowerFrom afterCased text := by
  induction text generalizing afterCased with
  | nil => exact absurd h List.not_mem_nil
  | cons d ds ih =>
      rw [lowerFrom]
      rcases List.mem_cons.mp h with rfl | h
      · have hsigma : c ≠ 'Σ' := by
          rintro rfl
          exact absurd hascii (by decide)
        rw [if_neg hsigma, lowerChar_of_ascii hascii, hlower]
        exact List.mem_cons_self
      · split_ifs
        all_goals first
          | exact List.mem_cons_of_mem _ (ih h _)
          | exact List.mem_append_right _ (ih h _)

/-- A text is inert if its lower case is. -/
lemma inert_of_inert_lower {text : List Char} (h : Inert (lower text)) : Inert text := by
  have hmarkers : ∀ c ∈ markers, c.toNat < 0x80 ∧ c.toLower = c :=
    List.forall_iff_forall_mem.mp (by decide)
  intro c hc
  by_contra hnot
  have hmarker : c ∈ markers := by
    by_contra hmem
    have hany : (markers.any (· == c)) = false := by
      simpa [List.any_eq_false] using fun d hd (heq : d = c) => hmem (heq ▸ hd)
    exact hnot (isInert_of_any_markers hany (by simp))
  obtain ⟨hascii, hlower⟩ := hmarkers c hmarker
  exact hnot (h c (mem_lowerFrom_of_mem hascii hlower hc false))

namespace Flip

/-! ## Shadows -/

lemma markersIn_negate (component : List Char) :
    markersIn (negate component) = markersIn component := by
  unfold negate
  split_ifs
  · rfl
  · split
    case h_1 rest _ => exact (markersIn_cons_of_isInert rfl rest).symm
    case h_2 =>
        have hplus : Inert (component.takeWhile (· == '+')) := by
          intro c hc
          obtain rfl : c = '+' := by simpa using List.mem_takeWhile_imp hc
          rfl
        rw [markersIn_cons_of_isInert rfl]
        conv_rhs => rw [← List.takeWhile_append_dropWhile (p := (· == '+')) (l := component)]
        rw [markersIn_append, markersIn_eq_nil hplus, List.nil_append]

lemma markersIn_negateFirst (parts : List (List Char)) :
    (negateFirst parts).flatMap markersIn = parts.flatMap markersIn := by
  induction parts with
  | nil => rfl
  | cons part parts ih =>
      rw [negateFirst]
      split_ifs
      · rw [List.flatMap_cons, List.flatMap_cons, markersIn_negate]
      · rw [List.flatMap_cons, List.flatMap_cons, ih]

lemma markersIn_flipShadow (parts : List (List Char)) :
    (flipShadow parts).flatMap markersIn = parts.flatMap markersIn := by
  rw [flipShadow]
  split_ifs
  · exact markersIn_negateFirst parts
  · rfl

theorem markersIn_flipShadows (text : List Char) :
    markersIn (flipShadows text) = markersIn text := by
  have hshadow : ∀ shadow,
      markersIn (joinWith ' ' (flipShadow (components [' '] shadow))) = markersIn shadow := by
    intro shadow
    rw [markersIn_joinWith rfl, markersIn_flipShadow, markersIn_components rfl]
  rw [flipShadows, markersIn_joinWith rfl, List.flatMap_map]
  simp only [hshadow]
  exact markersIn_components rfl text

/-! ## Values -/

/-- A cursor that has an opposite is a word in any case, and so is the opposite. -/
lemma markersIn_flipCursor (text : List Char) : markersIn (flipCursor text) = markersIn text := by
  have hinert : ∀ pair ∈ cursors, Inert pair.1.toList ∧ Inert pair.2.toList := by decide
  unfold flipCursor
  split
  case h_1 flipped hlookup =>
      obtain ⟨hword, hflipped⟩ := hinert _ (mem_of_lookup_eq_some hlookup)
      rw [String.toList_ofList] at hword
      rw [markersIn_eq_nil hflipped, markersIn_eq_nil (inert_of_inert_lower hword)]
  case h_2 => rfl

/-- **Every flip keeps the markers.** -/
theorem markersIn_flipBody {property : String} {body flipped : List Char}
    (h : flipBody property body = .ok flipped) : markersIn flipped = markersIn body := by
  unfold flipBody at h
  split_ifs at h
  · obtain rfl := Except.ok.inj h
    exact markersIn_flipShadows body
  · obtain rfl := Except.ok.inj h
    exact markersIn_flipCursor body
  · exact (reworded_flipWords h).markersIn
  · exact (reworded_flipGradients h).markersIn

lemma markersIn_attachImportance (body : List Char) (important : Bool) :
    markersIn (attachImportance body important) = markersIn body := by
  cases important with
  | false => rfl
  | true =>
      have hmark : Inert (' ' :: importantMark) := by decide
      rw [attachImportance, if_pos rfl, markersIn_append, markersIn_eq_nil hmark, List.append_nil]

lemma markersIn_splitImportance (value : List Char) :
    markersIn (splitImportance value).1 = markersIn value := by
  obtain ⟨mark, hvalue, hmark⟩ := exists_splitImportance_append value
  conv_rhs => rw [hvalue]
  rw [markersIn_append, markersIn_eq_nil hmark, List.append_nil]

theorem markersIn_flipValue {property : String} {value flipped : List Char}
    (h : flipValue property value = .ok flipped) : markersIn flipped = markersIn value := by
  rcases flipValue_cases h with rfl | ⟨body, hbody, rfl⟩
  · rfl
  · calc markersIn (attachImportance body (splitImportance value).2)
        = markersIn body := markersIn_attachImportance body _
      _ = markersIn (splitImportance value).1 := markersIn_flipBody hbody
      _ = markersIn value := markersIn_splitImportance value

end Flip

/-! ## Counterparts -/

variable {settings : Settings}

lemma markersIn_of_mem_keywordTexts {text : List Char} (h : text ∈ keywordTexts) :
    markersIn text = [] := by
  have hall : ∀ text ∈ keywordTexts, markersIn text = [] := by decide +kernel
  exact hall text h

/-- **The value of a counterpart has the markers of the value.** -/
theorem markersIn_counterpart {d e : Declaration} (hd : d.Resolved settings .ltr)
    (he : counterpartDeclaration settings d = .ok e) :
    markersIn e.value.toList = markersIn d.value.toList := by
  have hflip := flip_of_counterpartDeclaration he
  have hflipped : markersIn e.value.toList = markersIn (turned settings d).value.toList := by
    rcases Settings.flip_cases hflip with hflip | hsame
    · exact Flip.markersIn_flipValue hflip
    · rw [hsame]
  rw [hflipped]
  rcases value_turned_cases hd with hsame | ⟨_, hvalue, hturned⟩
  · rw [hsame]
  · rw [markersIn_of_mem_keywordTexts hvalue, markersIn_of_mem_keywordTexts hturned]

end AtomicStyle
