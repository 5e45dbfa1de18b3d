import AtomicStyle.Proofs.Number.Range
import AtomicStyle.Proofs.Property.Tables
import AtomicStyle.Proofs.PlainName

/-!
# The faults of a value

A value that has no canonical text for a property is rejected, with two exceptions: an integer that
is too large for a double, and a `content` value that is nothing but an importance mark
(`TextFault`).  Both are faults, and there is no other: the quotient by which a duration is turned
into seconds is never too large, because the integer was found in range before
(`valueText_eq_fault_iff`).

A value is given to the longhands of its property under the names that the direction asks for.
Neither step makes a fault of its own, so the exceptions can be told from the entry
(`textFault_of_mem_expand`).
-/

namespace AtomicStyle.Property

open Css Text

/-- The faults of asking for the canonical text of a value. -/
inductive TextFault (property : String) : Value → Fault → Prop
  | integer {n : Int} (hlarge : 2 ^ 1024 - 2 ^ 970 ≤ n.natAbs) :
      TextFault property (.int n) .integerTooLarge
  | bareMark {text : String} (hproperty : property = "content")
      (hbare : splitImportance (tidy text.toList) = ([], true)) :
      TextFault property (.text text) .noFirstCharacter

variable {strict : Bool} {property : String}

/-! ## Numbers -/

/-- A number is found to be finite before it is written. -/
lemma faultsIn_numberText {P : Fault → Prop} {n : Numeric} (hfinite : FaultsIn P n.isFinite)
    (hwritten : n.isFinite = .ok true → FaultsIn P n.format ∧ FaultsIn P n.formatDuration) :
    FaultsIn P (numberText strict property n) := by
  simp only [numberText, reject_bind]
  refine hfinite.bind fun finite hn => ?_
  cases finite with
  | false => exact .of_reject _
  | true =>
      obtain ⟨hformat, hduration⟩ := hwritten hn
      refine hformat.bind fun text _ => ?_
      split
      · exact .of_ok _
      · exact hduration
      · exact .of_ok _
      · exact .ite_reject (.of_ok _)

lemma faultsIn_numberText_float {P : Fault → Prop} (x : Binary64) :
    FaultsIn P (numberText strict property (.float x)) :=
  faultsIn_numberText (.of_ok _) fun _ => ⟨.of_ok _, .of_ok _⟩

/-- The seconds of an integer in range are in range. -/
lemma faultsIn_formatDuration_int {P : Fault → Prop} {n : Int}
    (hn : Binary64.ofInt? n ≠ none) : FaultsIn P (Numeric.int n).formatDuration := by
  rw [Numeric.formatDuration]
  split_ifs
  · exact .of_ok _
  · split
    case h_1 b hb => exact absurd hb (Binary64.ofRatio_thousand_ne_infinite hn _ b)
    case h_2 => exact .of_ok _
  · exact .of_ok _

lemma faultsIn_numberText_int (n : Int) :
    FaultsIn (TextFault property (.int n)) (numberText strict property (.int n)) := by
  cases hn : Binary64.ofInt? n with
  | none =>
      have hlarge : FaultsIn (TextFault property (.int n)) (Numeric.int n).isFinite := by
        rw [Numeric.isFinite, hn]
        exact .of_fault (.integer (Binary64.ofInt?_eq_none_iff.mp hn))
      refine faultsIn_numberText hlarge fun hfinite => ?_
      rw [Numeric.isFinite, hn] at hfinite
      exact absurd hfinite (fault_ne_ok _ _)
  | some x =>
      have hsome : Binary64.ofInt? n ≠ none := by simp [hn]
      refine faultsIn_numberText ?_ fun _ => ⟨?_, faultsIn_formatDuration_int hsome⟩
      · rw [Numeric.isFinite, hn]
        exact .of_ok true
      · rw [Numeric.format, hn]
        exact .of_ok _

/-! ## Texts -/

/-- Only the body of a `content` value is asked for its first character. -/
lemma faultsIn_adaptBody (body : List Char) :
    FaultsIn (fun f => f = .noFirstCharacter ∧ property = "content" ∧ body = [])
      (adaptBody property body) := by
  unfold adaptBody
  split_ifs with _ hcontent
  · exact .of_ok _
  · unfold contentBody
    split_ifs
    · exact .of_ok _
    · split
      · exact .of_fault ⟨rfl, hcontent, rfl⟩
      · split_ifs <;> exact .of_ok _
  · exact .of_ok _
  · exact .of_ok _

lemma faultsIn_stringText (text : String) :
    FaultsIn (TextFault property (.text text)) (stringText strict property text) := by
  simp only [stringText, reject_bind]
  by_cases htidy : tidy text.toList = []
  · rw [if_pos htidy]
    exact .of_reject _
  · rw [if_neg htidy]
    refine ((faultsIn_adaptBody _).mono ?_).bind fun body _ => .ite_reject ?_
    · rintro f ⟨rfl, hcontent, hbody⟩
      refine .bareMark hcontent ?_
      -- without a mark the body would be the whole text
      unfold splitImportance at hbody ⊢
      split at hbody
      case h_1 => exact congrArg (·, true) hbody
      case h_2 => exact absurd hbody htidy
    · split_ifs
      · split
        · exact .of_reject _
        · exact .of_ok _
      · exact .of_ok _

/-! ## Values -/

lemma faultsIn_valueText (value : Value) :
    FaultsIn (TextFault property value) (valueText strict property value) := by
  cases value with
  | int n => exact faultsIn_numberText_int n
  | float x => exact faultsIn_numberText_float x
  | text s => exact faultsIn_stringText s
  | _ => exact .of_reject _

/-- **When a canonical text is a fault.** -/
theorem valueText_eq_fault_iff {value : Value} {f : Fault} :
    valueText strict property value = fault f ↔ TextFault property value f := by
  constructor
  · exact faultsIn_valueText value f
  · intro h
    cases h with
    | integer hlarge =>
        rw [valueText, numberText, Numeric.isFinite, Binary64.ofInt?_eq_none_iff.mpr hlarge]
        rfl
    | @bareMark text hproperty hbare =>
        have htidy : tidy text.toList ≠ [] := by
          intro hnil
          rw [hnil] at hbare
          exact absurd hbare (by decide)
        rw [valueText, stringText, hproperty]
        simp only [htidy, if_false, hbare]
        rfl

/-! ## Entries -/

/-- No rendering of a logical name is `content`. -/
lemma eq_content_of_physicalName {settings : Settings} {direction : Direction} {longhand : String}
    (h : physicalName settings direction longhand = "content") : longhand = "content" := by
  have hall : ∀ e ∈ logicalProperties, "content" ∉ e.2.renderings := by decide +kernel
  unfold physicalName at h
  split at h
  case h_1 l hl =>
      have hmem := render_mem_renderings settings direction l
      rw [h] at hmem
      exact absurd hmem (hall _ (mem_of_lookup_eq_some hl))
  case h_2 => exact h

/-- **The fault of a longhand is the fault of its entry.** -/
theorem textFault_of_mem_expand {settings : Settings} {direction : Direction} {value : Value}
    {l : String × Value} {f : Fault} (hl : l ∈ expand property value)
    (h : TextFault (physicalName settings direction l.1) l.2 f) : TextFault property value f := by
  have hall : ∀ e ∈ shorthands, "content" ∉ e.2.longhands := by decide +kernel
  obtain ⟨longhand, given⟩ := l
  rcases mem_expand_cases hl with ⟨heq, _⟩ | ⟨s, hs, hmem, hgiven⟩
  · obtain ⟨rfl, rfl⟩ := Prod.mk.inj heq
    cases h with
    | integer hlarge => exact .integer hlarge
    | bareMark hproperty hbare => exact .bareMark (eq_content_of_physicalName hproperty) hbare
  · cases h with
    | integer hlarge =>
        rcases hgiven with rfl | ⟨_, _, _, htext, _⟩
        · exact .integer hlarge
        · cases htext
    | bareMark hproperty _ =>
        obtain rfl := eq_content_of_physicalName hproperty
        exact absurd hmem (hall _ (mem_of_lookup_eq_some hs))

end AtomicStyle.Property
