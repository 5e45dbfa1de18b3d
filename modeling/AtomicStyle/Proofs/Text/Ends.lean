import AtomicStyle.Proofs.Text.Line

/-!
# The ends of texts

A text is trimmed when no blank stands at either end (`IsTrimmed`).  A text is rewritten piece by
piece, and the result is trimmed if no piece becomes nothing and no piece gets a blank at an end that
had none (`KeepsEnds.append`).

**Lower case.**  No letter has a blank for its small letter, because no rule of the table leads to
one (`not_isBlank_of_mem_lowerChar`).
-/

namespace AtomicStyle.Text

/-! ## Trimmed texts -/

/-- No blank stands at either end. -/
structure IsTrimmed (text : List Char) : Prop where
  first : startsBlank text = false
  last : endsBlank text = false

lemma IsTidy.isTrimmed {text : List Char} (h : IsTidy text) : IsTrimmed text :=
  ⟨h.first, h.last⟩

lemma isTrimmed_of_forall {text : List Char} (h : ∀ c ∈ text, isBlank c = false) :
    IsTrimmed text :=
  (isTidy_of_forall h).isTrimmed

/-- Only nothing becomes nothing, and an end without a blank gets none. -/
structure KeepsEnds (a b : List Char) : Prop where
  empty : a = [] ↔ b = []
  first : startsBlank a = false → startsBlank b = false
  last : endsBlank a = false → endsBlank b = false

namespace KeepsEnds

variable {a b c d : List Char}

lemma refl (a : List Char) : KeepsEnds a a :=
  ⟨Iff.rfl, id, id⟩

lemma trans (h : KeepsEnds a b) (k : KeepsEnds b c) : KeepsEnds a c :=
  ⟨h.empty.trans k.empty, k.first ∘ h.first, k.last ∘ h.last⟩

lemma of_forall (ha : a ≠ []) (hb : b ≠ []) (h : ∀ c ∈ b, isBlank c = false) : KeepsEnds a b :=
  ⟨iff_of_false ha hb, fun _ => (isTrimmed_of_forall h).first,
    fun _ => (isTrimmed_of_forall h).last⟩

/-- What keeps the ends of two texts keeps those of both together. -/
lemma append (h : KeepsEnds a b) (k : KeepsEnds c d) : KeepsEnds (a ++ c) (b ++ d) := by
  refine ⟨by rw [List.append_eq_nil_iff, List.append_eq_nil_iff, h.empty, k.empty], ?_, ?_⟩
  · by_cases ha : a = []
    · obtain rfl := h.empty.mp ha
      rw [ha]
      exact k.first
    · rw [startsBlank_append ha, startsBlank_append (mt h.empty.mpr ha)]
      exact h.first
  · by_cases hc : c = []
    · obtain rfl := k.empty.mp hc
      rw [hc, List.append_nil, List.append_nil]
      exact h.last
    · rw [endsBlank_append hc, endsBlank_append (mt k.empty.mpr hc)]
      exact k.last

lemma isTrimmed (h : KeepsEnds a b) (ha : IsTrimmed a) : IsTrimmed b :=
  ⟨h.first ha.first, h.last ha.last⟩

end KeepsEnds

/-! ## Lower case -/

/-- The codes of the blanks. -/
def blankRuns : Runs := [
  (9, 13), (28, 32), (0x85, 0x85), (0xA0, 0xA0), (0x1680, 0x1680), (0x2000, 0x200A),
  (0x2028, 0x2029), (0x202F, 0x202F), (0x205F, 0x205F), (0x3000, 0x3000)]

lemma exists_run_of_isBlank {c : Char} (h : isBlank c = true) :
    ∃ run ∈ blankRuns, run.1 ≤ c.toNat ∧ c.toNat ≤ run.2 := by
  simp only [isBlank, Bool.or_eq_true, Bool.and_eq_true, decide_eq_true_eq, beq_iff_eq] at h
  simp only [blankRuns, List.exists_mem_cons_iff, List.not_mem_nil, false_and, exists_false]
  omega

/-- No letter has a blank for its small letter. -/
lemma not_isBlank_of_mem_lowerChar {c d : Char} (hc : isBlank c = false) (hd : d ∈ lowerChar c) :
    isBlank d = false := by
  have hascii : ∀ c : Char, c.toNat < 0x80 → isBlank c = false → isBlank c.toLower = false :=
    forall_ascii (by decide)
  unfold lowerChar at hd
  split_ifs at hd with hsmall hdotted
  · obtain rfl := List.mem_singleton.mp hd
    exact hascii c hsmall hc
  · obtain rfl | rfl := List.mem_pair.mp hd
    all_goals decide
  · obtain rfl := List.mem_singleton.mp hd
    rcases lowerPoint_cases c.toNat lowerRules with hself | ⟨rule, hrule, hfirst, hlast, hpoint⟩
    · rwa [hself, Char.ofNat_toNat]
    · by_contra hblank
      obtain ⟨run, hrun, hrunfirst, hrunlast⟩ := exists_run_of_isBlank (Bool.not_eq_false _ ▸ hblank)
      have hapart : ∀ rule ∈ lowerRules, ∀ run ∈ blankRuns,
          (rule.last : Int) + rule.shift < run.1 ∨ (run.2 : Int) < rule.first + rule.shift := by
        decide +kernel
      have hpositive : ∀ run ∈ blankRuns, 0 < run.1 := by decide
      have hpos := hpositive run hrun
      have hcases := hapart rule hrule run hrun
      have hcode := toNat_ofNat_cases (lowerPoint c.toNat lowerRules)
      omega

lemma keepsEnds_lowerChar (c : Char) : KeepsEnds [c] (lowerChar c) := by
  have hne : lowerChar c ≠ [] := by
    unfold lowerChar
    split_ifs <;> exact List.cons_ne_nil _ _
  cases hc : isBlank c with
  | false => exact .of_forall (List.cons_ne_nil c []) hne fun d => not_isBlank_of_mem_lowerChar hc
  | true =>
      refine ⟨iff_of_false (List.cons_ne_nil c []) hne, fun h => ?_, fun h => ?_⟩
      · exact absurd (hc.symm.trans h) (by decide)
      · exact absurd (hc.symm.trans ((endsBlank_concat [] c).symm.trans h)) (by decide)

/-- **Lower case keeps the ends of a text.** -/
theorem keepsEnds_lowerFrom (afterCased : Bool) (text : List Char) :
    KeepsEnds text (lowerFrom afterCased text) := by
  induction text generalizing afterCased with
  | nil => exact .refl []
  | cons c cs ih =>
      unfold lowerFrom
      by_cases hsigma : c = 'Σ'
      · rw [if_pos hsigma]
        refine KeepsEnds.append (a := [c]) (b := [_]) ?_ (ih _)
        refine .of_forall (List.cons_ne_nil c []) (List.cons_ne_nil _ []) ?_
        split_ifs <;> exact List.forall_mem_singleton.mpr (by decide)
      · rw [if_neg hsigma]
        exact (keepsEnds_lowerChar c).append (ih _)

end AtomicStyle.Text
