import AtomicStyle.Proofs.Css.Respelling

/-!
# Collapsing blanks loses no component

A value is cut into components at spaces only, and any other blank stands inside a component.  So
collapsing the blanks of a value may cut a component in two, but it never makes two into one.

**Ink.**  A piece counts as a component when it holds a character that is no blank
(`length_components`).  `inkedCount` counts these pieces, and `inkedBehind` those behind the first
one, to which more characters may be joined in front.

**Collapsing.**  `inkedCount_le_collapseFrom` goes along a text and its collapsed text at once.
Where a run of blanks has begun and a space would separate, only the number of all pieces can be
compared: the space in front of the run may have cut the first piece off.

**Components.**  So a collapsed text has at least as many components
(`length_components_le_collapse`); and a text without any holds blanks only.
-/

namespace AtomicStyle.Css

open Text

/-! ## Ink -/

/-- Whether the text holds anything but blanks. -/
def isInked (text : List Char) : Bool :=
  text.any fun c => !isBlank c

lemma isInked_eq_false_iff {text : List Char} :
    isInked text = false ↔ ∀ c ∈ text, isBlank c = true := by
  simp [isInked]

lemma trim_ne_nil_iff {text : List Char} : trim text ≠ [] ↔ isInked text = true := by
  rw [← not_iff_not, not_not, Bool.not_eq_true, isInked_eq_false_iff]
  constructor
  · intro h
    obtain ⟨trail, htrail, hblank⟩ := exists_trimEnd_append (trimStart text)
    rw [← trim, h, List.nil_append] at htrail
    -- what is left behind the blanks in front is blank and does not begin with a blank
    have hnil : trimStart text = [] := by
      have hstart := startsBlank_trimStart text
      cases htext : trimStart text with
      | nil => rfl
      | cons c cs =>
          rw [htext] at hstart
          have hc : c ∈ trail := by
            rw [← htrail, htext]
            exact List.mem_cons_self
          rw [startsBlank_cons, hblank c hc] at hstart
          cases hstart
    exact List.dropWhile_eq_nil_iff.mp hnil
  · intro h
    have hnil : trimStart text = [] := List.dropWhile_eq_nil_iff.mpr h
    rw [trim, hnil]
    rfl

/-- The components of a text are its inked pieces. -/
lemma length_components (text : List Char) :
    (components [' '] text).length = (pieces [' '] {} text).countP isInked := by
  rw [components, ← List.countP_eq_length_filter, List.countP_map]
  refine List.countP_congr fun p _ => ?_
  simp [trim_ne_nil_iff]

/-! ## Counting along a text -/

namespace Nesting

/-- What is quoted is not quoted by a blank. -/
def InkQuoted (n : Nesting) : Prop :=
  ∀ q ∈ n.quote, isBlank q = false

lemma InkQuoted.next {n : Nesting} (h : n.InkQuoted) (c : Char) : (n.next c).InkQuoted := by
  have hquotes : isBlank '"' = false ∧ isBlank '\'' = false := by decide
  obtain ⟨depth, quote⟩ := n
  cases quote with
  | some q =>
      simp only [Nesting.next]
      split_ifs
      · exact fun q hq => by simp at hq
      · exact h
  | none =>
      simp only [Nesting.next]
      split_ifs with hquote
      · intro q hq
        obtain rfl : c = q := Option.some.inj hq
        rcases Bool.or_eq_true_iff.mp hquote with hc | hc
        · exact of_decide_eq_true hc ▸ hquotes.1
        · exact of_decide_eq_true hc ▸ hquotes.2
      · exact h
      · exact h
      · exact h

/-- A blank opens nothing and closes nothing. -/
lemma InkQuoted.next_of_isBlank {n : Nesting} (h : n.InkQuoted) {c : Char}
    (hc : isBlank c = true) : n.next c = n := by
  have hne : ∀ d, isBlank d = false → c ≠ d := by
    rintro d hd rfl
    rw [hc] at hd
    cases hd
  obtain ⟨depth, quote⟩ := n
  cases quote with
  | some q => exact if_neg (hne q (h q rfl))
  | none =>
      simp [Nesting.next, hne '"' (by decide), hne '\'' (by decide), hne '(' (by decide),
        hne ')' (by decide)]

/-- Only a space separates. -/
lemma separates_of_ne {n : Nesting} {c : Char} (h : c ≠ ' ') : n.separates [' '] c = false := by
  simp [separates, h]

lemma separates_of_not_isBlank {n : Nesting} {c : Char} (h : isBlank c = false) :
    n.separates [' '] c = false := by
  refine separates_of_ne ?_
  rintro rfl
  exact absurd h (by decide)

end Nesting

/-- The number of inked pieces. -/
def inkedCount (n : Nesting) (text : List Char) : Nat :=
  (pieces [' '] n text).countP isInked

/-- The number of inked pieces behind the first piece. -/
def inkedBehind (n : Nesting) (text : List Char) : Nat :=
  (pieces [' '] n text).tail.countP isInked

lemma inkedBehind_le (n : Nesting) (text : List Char) : inkedBehind n text ≤ inkedCount n text :=
  (List.tail_sublist _).countP_le

section

variable {n : Nesting} {c : Char}

lemma inkedBehind_cons_of_separates (h : n.separates [' '] c = true) (cs : List Char) :
    inkedBehind n (c :: cs) = inkedCount n cs := by
  rw [inkedBehind, pieces, if_pos h, List.tail_cons, inkedCount]

lemma inkedBehind_cons (h : n.separates [' '] c = false) (cs : List Char) :
    inkedBehind n (c :: cs) = inkedBehind (n.next c) cs := by
  obtain ⟨p, ps, hps⟩ := List.exists_cons_of_ne_nil (pieces_ne_nil [' '] (n.next c) cs)
  rw [inkedBehind, inkedBehind, pieces, h, if_neg Bool.false_ne_true, hps]
  rfl

/-- A blank makes no piece count that did not. -/
lemma inkedCount_cons_of_isBlank (hn : n.InkQuoted) (hc : isBlank c = true) (cs : List Char) :
    inkedCount n (c :: cs) = inkedCount n cs := by
  rw [inkedCount, inkedCount, pieces, hn.next_of_isBlank hc]
  split_ifs
  · rfl
  · obtain ⟨p, ps, hps⟩ := List.exists_cons_of_ne_nil (pieces_ne_nil [' '] n cs)
    have hink : isInked (c :: p) = isInked p := by simp [isInked, hc]
    rw [hps, Text.consFirst, List.countP_cons, List.countP_cons, hink]

lemma inkedBehind_cons_le (hn : n.InkQuoted) (hc : isBlank c = true) (cs : List Char) :
    inkedBehind n (c :: cs) ≤ inkedCount n cs := by
  rw [← inkedCount_cons_of_isBlank hn hc]
  exact inkedBehind_le n (c :: cs)

/-- Where a space does not separate, no blank does. -/
lemma inkedBehind_cons_of_isBlank (hn : n.InkQuoted) (hc : isBlank c = true)
    (h : n.separates [' '] ' ' = false) (cs : List Char) :
    inkedBehind n (c :: cs) = inkedBehind n cs := by
  have hseparates : n.separates [' '] c = false := by
    by_cases hspace : c = ' '
    · rwa [hspace]
    · exact Nesting.separates_of_ne hspace
  rw [inkedBehind_cons hseparates, hn.next_of_isBlank hc]

/-- Any other character makes the first piece count. -/
lemma inkedCount_cons (hc : isBlank c = false) (cs : List Char) :
    inkedCount n (c :: cs) = inkedBehind (n.next c) cs + 1 := by
  have hseparates := Nesting.separates_of_not_isBlank (n := n) hc
  obtain ⟨p, ps, hps⟩ := List.exists_cons_of_ne_nil (pieces_ne_nil [' '] (n.next c) cs)
  have hink : isInked (c :: p) = true := by simp [isInked, hc]
  rw [inkedCount, inkedBehind, pieces, hseparates, if_neg Bool.false_ne_true, hps,
    Text.consFirst, List.countP_cons_of_pos hink, List.tail_cons]

end

/-- Where no piece is inked there are blanks only. -/
lemma isBlank_of_inkedCount_eq_zero {n : Nesting} (hn : n.InkQuoted) {text : List Char}
    (h : inkedCount n text = 0) : ∀ c ∈ text, isBlank c = true := by
  induction text with
  | nil => exact fun c hc => absurd hc List.not_mem_nil
  | cons c cs ih =>
      cases hc : isBlank c with
      | true =>
          rw [inkedCount_cons_of_isBlank hn hc] at h
          exact List.forall_mem_cons.mpr ⟨hc, ih h⟩
      | false =>
          rw [inkedCount_cons hc] at h
          cases h

/-! ## Collapsing -/

/-- **Collapsing does not make the inked pieces fewer**, nor those behind the first one, unless a
run of blanks has begun where a space would separate. -/
theorem inkedCount_le_collapseFrom {n : Nesting} (hn : n.InkQuoted) (inRun : Bool)
    (text : List Char) :
    inkedCount n text ≤ inkedCount n (collapseFrom inRun text) ∧
      (inRun = false ∨ n.separates [' '] ' ' = false →
        inkedBehind n text ≤ inkedBehind n (collapseFrom inRun text)) := by
  induction text generalizing n inRun with
  | nil => exact ⟨Nat.le_refl _, fun _ => Nat.le_refl _⟩
  | cons c cs ih =>
      cases hc : isBlank c with
      | false =>
          have hbehind := (ih (hn.next c) false).2 (Or.inl rfl)
          have hseparates := Nesting.separates_of_not_isBlank (n := n) hc
          rw [collapseFrom_cons_of_not_isBlank hc, inkedCount_cons hc, inkedCount_cons hc,
            inkedBehind_cons hseparates, inkedBehind_cons hseparates]
          exact ⟨Nat.succ_le_succ hbehind, fun _ => hbehind⟩
      | true =>
          have hspace : isBlank ' ' = true := by decide
          obtain ⟨hcount, hbehind⟩ := ih hn true
          rw [inkedCount_cons_of_isBlank hn hc]
          cases inRun with
          | true =>
              rw [collapseFrom_true_cons hc]
              refine ⟨hcount, fun h => ?_⟩
              have hseparates := h.resolve_left Bool.noConfusion
              rw [inkedBehind_cons_of_isBlank hn hc hseparates]
              exact hbehind h
          | false =>
              rw [collapseFrom_false_cons hc, inkedCount_cons_of_isBlank hn hspace]
              refine ⟨hcount, fun _ => ?_⟩
              -- the space that is written separates, or the blank does not separate either
              cases hseparates : n.separates [' '] ' ' with
              | true =>
                  rw [inkedBehind_cons_of_separates hseparates]
                  exact (inkedBehind_cons_le hn hc cs).trans hcount
              | false =>
                  rw [inkedBehind_cons_of_isBlank hn hc hseparates,
                    inkedBehind_cons_of_isBlank hn hspace hseparates]
                  exact hbehind (Or.inr hseparates)

/-! ## Components -/

/-- No quote is open at the start. -/
lemma inkQuoted_start : Nesting.InkQuoted {} := fun q hq => by simp at hq

/-- A text that has no components and ends in no blank is empty. -/
lemma eq_nil_of_components_eq_nil {text : List Char} (hend : endsBlank text = false)
    (h : components [' '] text = []) : text = [] := by
  have hcount : inkedCount {} text = 0 := by
    rw [inkedCount, ← length_components, h, List.length_nil]
  rcases List.eq_nil_or_concat' text with hnil | ⟨front, c, rfl⟩
  · exact hnil
  · have hc := isBlank_of_inkedCount_eq_zero inkQuoted_start hcount c (by simp)
    rw [endsBlank_concat, hc] at hend
    cases hend

/-- **A collapsed text has at least as many components.** -/
theorem length_components_le_collapse (text : List Char) :
    (components [' '] text).length ≤ (components [' '] (collapse text)).length := by
  rw [length_components, length_components]
  exact (inkedCount_le_collapseFrom inkQuoted_start false text).1

end AtomicStyle.Css
