import AtomicStyle.Proofs.Css.Importance
import AtomicStyle.Proofs.Css.NumberText
import AtomicStyle.Proofs.Outcome
import AtomicStyle.Proofs.Property.Tables
import AtomicStyle.Property.ValueText

/-!
# The canonical text of a value

What can be said of the text that a value gets for a property, when it gets one.  The check for
terminators is made on the body of a text value only: numbers are laid out without a check, and an
importance mark is put behind the checked body.

**Acceptance.**  `numberText_eq_ok` and `stringText_eq_ok` say which values are accepted and with
which text, with the failures left out.  `terminator?_valueText` reads safety off them, and
`valueText_of_treatedAlike` that properties which are treated alike give them the same texts.
-/

namespace AtomicStyle.Property

open Css Text

/-! ## Canonical texts -/

/-- When a number has a text for a property, and which. -/
lemma numberText_eq_ok {strict : Bool} {property : String} {n : Numeric} {text : List Char} :
    numberText strict property n = .ok text ↔
      n.isFinite = .ok true ∧ ∃ plain, n.format = .ok plain ∧
        match domain? property with
        | some .number => plain = text
        | some .time => n.formatDuration = .ok text
        | some .length => plain ++ ['p', 'x'] = text
        | _ => ¬(strict && !isCustom property) = true ∧ plain = text := by
  simp only [numberText, reject_bind, bind_eq_ok]
  constructor
  · rintro ⟨finite, hfinite, h⟩
    cases finite with
    | false => simp at h
    | true =>
        obtain ⟨plain, hplain, h⟩ := bind_eq_ok.mp h
        refine ⟨hfinite, plain, hplain, ?_⟩
        revert h
        cases domain? property with
        | none => simp only [ite_reject_eq_ok, pure_eq_ok, imp_self]
        | some d => cases d <;> simp only [ite_reject_eq_ok, pure_eq_ok, imp_self]
  · rintro ⟨hfinite, plain, hplain, h⟩
    refine ⟨true, hfinite, bind_eq_ok.mpr ⟨plain, hplain, ?_⟩⟩
    revert h
    cases domain? property with
    | none => simp only [ite_reject_eq_ok, pure_eq_ok, imp_self]
    | some d => cases d <;> simp only [ite_reject_eq_ok, pure_eq_ok, imp_self]

/-- When a text value has a text for a property, and which. -/
lemma stringText_eq_ok {strict : Bool} {property value : String} {text : List Char} :
    stringText strict property value = .ok text ↔
      tidy value.toList ≠ [] ∧
        ∃ body, adaptBody property (splitImportance (tidy value.toList)).1 = .ok body ∧
          terminator? body = none ∧
          (strict = true → refusedComponent? property body = none) ∧
          attachImportance body (splitImportance (tidy value.toList)).2 = text := by
  simp only [stringText, reject_bind]
  by_cases htidy : tidy value.toList = []
  · simp [htidy]
  · simp only [htidy, if_false, bind_eq_ok, ne_eq, not_false_eq_true, true_and]
    refine exists_congr fun body => and_congr_right fun _ => ?_
    cases hbody : terminator? body with
    | some i => simp
    | none =>
        cases strict with
        | false => simp
        | true => cases refusedComponent? property body <;> simp

lemma isNumeral_numberText {strict : Bool} {property : String} {n : Numeric} {text : List Char}
    (h : numberText strict property n = .ok text) : IsNumeral text := by
  obtain ⟨_, plain, hplain, h⟩ := numberText_eq_ok.mp h
  have hnumeral := isNumeral_format hplain
  split at h
  · exact h ▸ hnumeral
  · exact isNumeral_formatDuration h
  · exact h ▸ isNumeral_append.mpr ⟨hnumeral, by decide⟩
  · exact h.2 ▸ hnumeral

/-- **The canonical text of a value is safe**, whatever the value and the property. -/
theorem terminator?_valueText {strict : Bool} {property : String} {v : Value} {text : List Char}
    (h : valueText strict property v = .ok text) : terminator? text = none := by
  cases v with
  | int n => exact (isNumeral_numberText h).inert.terminator?_eq_none
  | float x => exact (isNumeral_numberText h).inert.terminator?_eq_none
  | text s =>
      obtain ⟨_, body, _, hbody, _, rfl⟩ := stringText_eq_ok.mp h
      exact terminator?_attachImportance.mpr hbody
  | _ => exact absurd h (reject_ne_ok _ _)

/-! ## Properties that are treated alike -/

section

variable {p q : String}

lemma domain?_eq_some_iff_of_treatedAlike (h : TreatedAlike p q) {d : Domain} (hd : d ≠ .plain) :
    domain? p = some d ↔ domain? q = some d := by
  have hsome : ∀ {r}, domain? r = some d ↔ (domain? r).getD .plain = d := by
    intro r
    cases domain? r with
    | none => exact iff_of_false (by simp) hd.symm
    | some e => simp
  rw [hsome, hsome, h.domain]

lemma adaptBody_of_treatedAlike (h : TreatedAlike p q) (body : List Char) :
    adaptBody p body = adaptBody q body := by
  have htime := domain?_eq_some_iff_of_treatedAlike h (show Domain.time ≠ .plain by decide)
  simp only [adaptBody, h.names, h.content, htime]

lemma componentCheck?_of_treatedAlike (h : TreatedAlike p q) :
    componentCheck? p = componentCheck? q := by
  have hgetD : ∀ r, componentCheck? r = match (domain? r).getD .plain with
      | .length => some isLengthComponent
      | .time => some isTimeComponent
      | .number => if takesGridLines r then none else some isNumberComponent
      | .plain => none := by
    intro r
    unfold componentCheck?
    cases domain? r with
    | none => rfl
    | some d => cases d <;> rfl
  rw [hgetD, hgetD, h.domain, h.gridLines]

lemma refusedComponent?_of_treatedAlike (h : TreatedAlike p q) (body : List Char) :
    refusedComponent? p body = refusedComponent? q body := by
  simp only [refusedComponent?, componentCheck?_of_treatedAlike h, h.custom]

lemma numberText_of_treatedAlike {strict : Bool} (h : TreatedAlike p q) {n : Numeric}
    {text : List Char} (hp : numberText strict p n = .ok text) :
    numberText strict q n = .ok text := by
  have hgetD : ∀ r plain, (match domain? r with
      | some .number => plain = text
      | some .time => n.formatDuration = .ok text
      | some .length => plain ++ ['p', 'x'] = text
      | _ => ¬(strict && !isCustom r) = true ∧ plain = text) ↔
      match (domain? r).getD .plain with
      | .number => plain = text
      | .time => n.formatDuration = .ok text
      | .length => plain ++ ['p', 'x'] = text
      | .plain => ¬(strict && !isCustom r) = true ∧ plain = text := by
    intro r plain
    cases domain? r with
    | none => rfl
    | some d => cases d <;> rfl
  obtain ⟨hfinite, plain, hplain, htext⟩ := numberText_eq_ok.mp hp
  have hsame := (hgetD p plain).mp htext
  rw [h.domain, h.custom] at hsame
  exact numberText_eq_ok.mpr ⟨hfinite, plain, hplain, (hgetD q plain).mpr hsame⟩

/-- **Properties that are treated alike give a value the same text.** -/
theorem valueText_of_treatedAlike {strict : Bool} (h : TreatedAlike p q) {v : Value}
    {text : List Char} (hp : valueText strict p v = .ok text) :
    valueText strict q v = .ok text := by
  cases v with
  | int n => exact numberText_of_treatedAlike h hp
  | float x => exact numberText_of_treatedAlike h hp
  | text s =>
      obtain ⟨hne, body, hbody, hsafe, hstrict, htext⟩ := stringText_eq_ok.mp hp
      rw [adaptBody_of_treatedAlike h] at hbody
      rw [refusedComponent?_of_treatedAlike h] at hstrict
      exact stringText_eq_ok.mpr ⟨hne, body, hbody, hsafe, hstrict, htext⟩
  | _ => exact absurd hp (reject_ne_ok _ _)

/-- Properties that take the same values give a value the same text. -/
lemma valueText_of_sameValues {strict : Bool} (h : SameValues p q) {v : Value} {text : List Char}
    (hp : valueText strict p v = .ok text) : valueText strict q v = .ok text :=
  valueText_of_treatedAlike h.treatedAlike hp

end

end AtomicStyle.Property
