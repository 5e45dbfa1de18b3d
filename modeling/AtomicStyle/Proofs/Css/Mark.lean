import AtomicStyle.Proofs.Css.Importance
import AtomicStyle.Proofs.Text.Ascii

/-!
# Importance marks found again

The mark of a value is cut off from the text as it was given, and put back in one spelling.  When
the result is read again, the same mark has to be found.

**Marks.**  A mark holds one exclamation mark (`count_of_isMark`).  So a longer text that ends in a
mark is no mark, unless it only has more blanks in front: `beforeMark?_eq_some_iff` says what is
cut off, whatever marks stand further in front (`splitImportance_eq_true_iff`), and
`splitImportance_attachImportance` that what was put back is found.

**Blanks.**  A mark may be written with any blanks around its exclamation mark.  Collapsing them
makes no mark and breaks none (`isMark_collapseFrom`), so it makes no difference whether a value is
collapsed before its mark is cut off or after (`splitImportance_collapse`).
-/

namespace AtomicStyle.Css

open Text

/-! ## Marks -/

/-- **A mark holds one exclamation mark.** -/
theorem count_of_isMark {text : List Char} (h : isMark text = true) : text.count '!' = 1 := by
  obtain @⟨lead, gap, word, ending, hlead, hgap, hword, hending⟩ := isMark_iff_spellsMark.mp h
  have hblanks : ∀ {a : List Char}, (∀ c ∈ a, isBlank c = true) → a.count '!' = 0 := by
    intro a ha
    exact List.count_eq_zero.mpr fun hmem => absurd (ha _ hmem) (by decide)
  have hletters : word.count '!' = 0 := by
    refine List.count_eq_zero.mpr fun hmem => ?_
    have hfold := map_foldChar_eq_importantWord_iff.mpr hword
    have hmem : foldChar '!' ∈ importantWord := hfold ▸ List.mem_map_of_mem hmem
    exact absurd hmem (by decide)
  have hbreak : ending.count '!' = 0 := by rcases hending with rfl | rfl <;> decide
  rw [List.count_append, List.count_cons_self, List.count_append, List.count_append,
    hblanks hlead, hblanks hgap, hletters, hbreak]

/-- A mark begins, behind its blanks, with its exclamation mark. -/
lemma exists_trimStart_of_isMark {text : List Char} (h : isMark text = true) :
    ∃ rest, trimStart text = '!' :: rest := by
  obtain ⟨hlead, _, _, _⟩ := isMark_iff_spellsMark.mp h
  exact ⟨_, (trimStart_append_of_forall hlead _).trans (trimStart_eq_self rfl)⟩

lemma exists_trimStart_append {a : List Char} (hne : a ≠ []) (hend : endsBlank a = false)
    (b : List Char) : ∃ c cs, trimStart (a ++ b) = c :: cs ++ b ∧ c ∈ a := by
  induction a with
  | nil => exact absurd rfl hne
  | cons c cs ih =>
      by_cases hc : isBlank c = true
      · have hcs : cs ≠ [] := by
          rintro rfl
          exact absurd hend (by simp [endsBlank, hc])
        obtain ⟨d, ds, htrim, hd⟩ := ih hcs (endsBlank_of_append (a := [c]) hend)
        refine ⟨d, ds, ?_, List.mem_cons_of_mem c hd⟩
        rw [← htrim, trimStart, trimStart, List.cons_append, List.dropWhile_cons_of_pos hc]
      · refine ⟨c, cs, ?_, List.mem_cons_self⟩
        exact trimStart_eq_self (Bool.not_eq_true _ ▸ hc)

/-- A mark is found behind a text that does not end in a blank. -/
lemma beforeMark?_append {body mark : List Char} (hmark : isMark mark = true)
    (hbody : endsBlank body = false) : beforeMark? (body ++ mark) = some body := by
  induction body with
  | nil =>
      obtain ⟨c, cs, rfl⟩ : ∃ c cs, mark = c :: cs := by
        refine List.exists_cons_of_ne_nil ?_
        rintro rfl
        exact absurd hmark (by decide)
      rw [List.nil_append, beforeMark?, if_pos hmark]
  | cons c cs ih =>
      have hnot : ¬isMark (c :: cs ++ mark) = true := by
        intro h
        -- it would begin with an exclamation mark in front of that of the mark
        obtain ⟨d, ds, htrim, hd⟩ := exists_trimStart_append (List.cons_ne_nil c cs) hbody mark
        obtain ⟨rest, htext⟩ := exists_trimStart_of_isMark h
        rw [htrim] at htext
        obtain ⟨rfl, _⟩ := List.cons.inj htext
        have hcount := count_of_isMark h
        rw [List.count_append, count_of_isMark hmark] at hcount
        have hpos : 0 < (c :: cs).count '!' := List.count_pos_iff.mpr hd
        omega
      rw [List.cons_append] at hnot ⊢
      rw [beforeMark?, if_neg hnot, ih (endsBlank_of_append (a := [c]) hbody), Option.map_some]

/-- **What a mark is cut off from**: the text in front of a mark, without the blanks between
them. -/
theorem beforeMark?_eq_some_iff {text body : List Char} :
    beforeMark? text = some body ↔
      ∃ mark, text = body ++ mark ∧ isMark mark = true ∧ endsBlank body = false := by
  constructor
  · intro h
    induction text generalizing body with
    | nil => simp [beforeMark?] at h
    | cons c cs ih =>
        rw [beforeMark?] at h
        split_ifs at h with hmark
        · obtain rfl := Option.some.inj h
          exact ⟨c :: cs, rfl, hmark, rfl⟩
        · obtain ⟨rest, hrest, rfl⟩ := Option.map_eq_some_iff.mp h
          obtain ⟨mark, rfl, hrestmark, hend⟩ := ih hrest
          refine ⟨mark, rfl, hrestmark, ?_⟩
          cases rest with
          | cons d ds => rwa [← List.singleton_append, endsBlank_append (by simp)]
          | nil =>
              -- a blank in front of the mark would belong to it
              by_contra hblank
              have hc : isBlank c = true := by simpa [endsBlank] using hblank
              refine hmark ?_
              rw [isMark, trimStart, List.nil_append, List.dropWhile_cons_of_pos hc]
              exact hrestmark
  · rintro ⟨mark, rfl, hmark, hend⟩
    exact beforeMark?_append hmark hend

/-- A body and a mark is what a text is split into if it ends in the mark and the body does not end
in a blank. -/
lemma splitImportance_eq_true_iff {text body : List Char} :
    splitImportance text = (body, true) ↔
      ∃ mark, text = body ++ mark ∧ isMark mark = true ∧ endsBlank body = false := by
  rw [← beforeMark?_eq_some_iff, splitImportance]
  cases beforeMark? text <;> simp

/-- No mark is cut off from a text that does not end in one. -/
lemma beforeMark?_eq_none_iff {text : List Char} :
    beforeMark? text = none ↔ ∀ a b, text = a ++ b → isMark b = false := by
  induction text with
  | nil =>
      refine iff_of_true rfl fun a b h => ?_
      rw [(List.append_eq_nil_iff.mp h.symm).2]
      decide
  | cons c cs ih =>
      rw [beforeMark?]
      split_ifs with hmark
      · simp only [false_iff]
        intro h
        rw [h [] (c :: cs) rfl] at hmark
        cases hmark
      · rw [Option.map_eq_none_iff, ih]
        constructor
        · intro h a b hab
          cases a with
          | nil =>
              obtain rfl : c :: cs = b := hab
              exact Bool.not_eq_true _ ▸ hmark
          | cons d ds => exact h ds b (List.cons.inj hab).2
        · intro h a b hab
          exact h (c :: a) b (by rw [hab]; rfl)

/-- A value either ends in a mark that is cut off, or no mark stands at its end. -/
lemma splitImportance_cases (text : List Char) :
    (∃ mark, text = (splitImportance text).1 ++ mark ∧ isMark mark = true ∧
        endsBlank (splitImportance text).1 = false ∧ (splitImportance text).2 = true) ∨
      splitImportance text = (text, false) ∧ ∀ a b, text = a ++ b → isMark b = false := by
  unfold splitImportance
  cases h : beforeMark? text with
  | some body =>
      obtain ⟨mark, htext, hmark, hend⟩ := beforeMark?_eq_some_iff.mp h
      exact Or.inl ⟨mark, htext, hmark, hend, rfl⟩
  | none => exact Or.inr ⟨rfl, beforeMark?_eq_none_iff.mp h⟩

lemma splitImportance_append {body mark : List Char} (hmark : isMark mark = true)
    (hbody : endsBlank body = false) : splitImportance (body ++ mark) = (body, true) := by
  rw [splitImportance, beforeMark?_append hmark hbody]

lemma splitImportance_of_forall {text : List Char}
    (h : ∀ a b, text = a ++ b → isMark b = false) : splitImportance text = (text, false) := by
  rw [splitImportance, beforeMark?_eq_none_iff.mpr h]

/-- A text without an exclamation mark has no mark. -/
lemma splitImportance_of_not_mem {text : List Char} (h : '!' ∉ text) :
    splitImportance text = (text, false) := by
  refine splitImportance_of_forall fun a b hab => Bool.not_eq_true _ ▸ fun hmark => h ?_
  have hpos : 0 < b.count '!' := by rw [count_of_isMark hmark]; exact Nat.one_pos
  rw [hab]
  exact List.mem_append_right a (List.count_pos_iff.mp hpos)

/-- A text that ends in a marker has no mark. -/
lemma splitImportance_concat {c : Char} (hc : isInert c = false) (text : List Char) :
    splitImportance (text ++ [c]) = (text ++ [c], false) := by
  refine splitImportance_of_forall fun a b hab => Bool.not_eq_true _ ▸ fun hmark => ?_
  rcases List.eq_nil_or_concat' b with rfl | ⟨front, d, rfl⟩
  · exact absurd hmark (by decide)
  · rw [← List.append_assoc] at hab
    obtain rfl : c = d := (List.append_singleton_inj.mp hab).2
    have hinert := inert_of_isMark hmark c (by simp)
    rw [hc] at hinert
    cases hinert

/-- The body of a value that does not end in a blank does not end in one either. -/
lemma endsBlank_splitImportance {text : List Char} (h : endsBlank text = false) :
    endsBlank (splitImportance text).1 = false := by
  rcases splitImportance_cases text with ⟨_, _, _, hend, _⟩ | ⟨hsplit, _⟩
  · exact hend
  · rwa [hsplit]

/-- **A mark that was put behind a body is cut off again.** -/
theorem splitImportance_attachImportance {body : List Char} (hbody : endsBlank body = false) :
    splitImportance (attachImportance body true) = (body, true) :=
  splitImportance_append (by decide) hbody

/-- **What is cut off is what was put behind.**  A text is a body and a mark exactly if a spelling
of the mark stands behind the body and no blank in between, and then the canonical mark is cut off
from the same body.  It is cut off from the bodies that do not end in a blank, and from no other. -/
theorem splitImportance_eq_important_iff (text body : List Char) :
    (splitImportance text = (body, true) ↔
        endsBlank body = false ∧ (∃ mark, text = body ++ mark ∧ SpellsMark mark) ∧
          splitImportance (attachImportance body true) = (body, true)) ∧
      (splitImportance (attachImportance body true) = (body, true) ↔ endsBlank body = false) := by
  refine ⟨⟨fun h => ?_, ?_⟩, fun h => ?_, splitImportance_attachImportance⟩
  · obtain ⟨mark, htext, hmark, hend⟩ := splitImportance_eq_true_iff.mp h
    exact ⟨hend, ⟨mark, htext, isMark_iff_spellsMark.mp hmark⟩,
      splitImportance_attachImportance hend⟩
  · rintro ⟨hend, ⟨mark, rfl, hmark⟩, _⟩
    exact splitImportance_append (isMark_iff_spellsMark.mpr hmark) hend
  · obtain ⟨_, _, _, hend⟩ := splitImportance_eq_true_iff.mp h
    exact hend

example : splitImportance "1px !important! ımpORTant\n".toList =
    ("1px !important".toList, true) := by
  decide

/-- A body without a mark of its own is found again, with a mark behind it or without. -/
lemma splitImportance_attach {body : List Char} {important : Bool} (hbody : endsBlank body = false)
    (hplain : important = false → splitImportance body = (body, false)) :
    splitImportance (attachImportance body important) = (body, important) := by
  cases important with
  | false => exact hplain rfl
  | true => exact splitImportance_attachImportance hbody

/-! ## Blanks -/

/-- Collapsing leaves a space for blanks, so a text that comes out without any had none. -/
lemma forall_of_forall_collapse {text : List Char}
    (h : ∀ c ∈ collapse text, isBlank c = false) : ∀ c ∈ text, isBlank c = false := by
  rw [collapse] at h
  induction text with
  | nil => exact fun c hc => absurd hc List.not_mem_nil
  | cons c cs ih =>
      cases hc : isBlank c with
      | true =>
          rw [collapseFrom_false_cons hc] at h
          exact absurd (h ' ' List.mem_cons_self) (by decide)
      | false =>
          rw [collapseFrom_cons_of_not_isBlank hc] at h
          exact List.forall_mem_cons.mpr ⟨hc, ih (List.forall_mem_cons.mp h).2⟩

lemma isImportantWord_iff {text : List Char} (hend : endsBlank text = false) :
    isImportantWord text = true ↔ text.map foldChar = importantWord := by
  rw [isImportantWord_iff_exists]
  constructor
  · rintro ⟨word, ending, rfl, hfold, rfl | rfl⟩
    · rwa [List.append_nil]
    · exact absurd hend (by rw [endsBlank_concat]; decide)
  · intro h
    exact ⟨text, [], (List.append_nil text).symm, h, .inl rfl⟩

lemma isImportantWord_collapse {text : List Char} (hend : endsBlank text = false) :
    isImportantWord (collapse text) = isImportantWord text := by
  rw [Bool.eq_iff_iff, isImportantWord_iff hend, isImportantWord_iff (endsBlank_collapse hend)]
  constructor
  · intro h
    rwa [collapse_eq_self (forall_of_forall_collapse (not_isBlank_of_map_foldChar h))] at h
  · intro h
    rwa [collapse_eq_self (not_isBlank_of_map_foldChar h)]

/-- **Collapsing makes no mark and breaks none.** -/
theorem isMark_collapseFrom (inRun : Bool) {text : List Char} (hend : endsBlank text = false) :
    isMark (collapseFrom inRun text) = isMark text := by
  rw [isMark, isMark, trimStart_collapseFrom]
  have hstart := startsBlank_trimStart text
  have htrim := endsBlank_trimStart hend
  cases htext : trimStart text with
  | nil => rfl
  | cons c cs =>
      rw [htext] at hstart htrim
      have hc : isBlank c = false := hstart
      rw [collapse, collapseFrom_cons_of_not_isBlank hc]
      by_cases hbang : c = '!'
      · subst hbang
        have hcs : endsBlank cs = false := endsBlank_of_append (a := ['!']) htrim
        exact (congrArg isImportantWord (trimStart_collapseFrom false cs)).trans
          (isImportantWord_collapse (endsBlank_trimStart hcs))
      · split
        case h_1 heq => exact absurd (List.cons.inj heq).1 hbang
        case h_2 =>
            split
            case h_1 heq => exact absurd (List.cons.inj heq).1 hbang
            case h_2 => rfl

/-- What stands at the end of a collapsed text is what something at the end of the text collapses
to. -/
lemma exists_of_collapseFrom_eq_append {inRun : Bool} {text a b : List Char}
    (h : collapseFrom inRun text = a ++ b) :
    ∃ front back inRun', text = front ++ back ∧ collapseFrom inRun' back = b := by
  induction text generalizing inRun a with
  | nil =>
      obtain ⟨_, rfl⟩ := List.append_eq_nil_iff.mp h.symm
      exact ⟨[], [], false, rfl, rfl⟩
  | cons c cs ih =>
      cases a with
      | nil => exact ⟨[], c :: cs, inRun, rfl, h⟩
      | cons d ds =>
          rw [collapseFrom] at h
          split_ifs at h
          · obtain ⟨front, back, inRun', rfl, hback⟩ := ih h
            exact ⟨c :: front, back, inRun', rfl, hback⟩
          · obtain ⟨front, back, inRun', rfl, hback⟩ := ih (List.cons.inj h).2
            exact ⟨c :: front, back, inRun', rfl, hback⟩
          · obtain ⟨front, back, inRun', rfl, hback⟩ := ih (List.cons.inj h).2
            exact ⟨c :: front, back, inRun', rfl, hback⟩

/-- **A value may be collapsed before its mark is cut off or after.** -/
theorem splitImportance_collapse {text : List Char} (hend : endsBlank text = false) :
    splitImportance (collapse text) =
      (collapse (splitImportance text).1, (splitImportance text).2) := by
  rcases splitImportance_cases text with ⟨mark, htext, hmark, hbody, himportant⟩ | ⟨hsplit, hnone⟩
  · have hmarkend : endsBlank mark = false := by
      rw [htext] at hend
      exact endsBlank_of_append hend
    rw [himportant]
    conv_lhs => rw [htext, collapse_append hbody]
    refine splitImportance_append ?_ (endsBlank_collapse hbody)
    rwa [collapse, isMark_collapseFrom false hmarkend]
  · rw [hsplit]
    refine splitImportance_of_forall fun a b hab => ?_
    obtain ⟨front, back, inRun, rfl, rfl⟩ := exists_of_collapseFrom_eq_append hab
    rw [isMark_collapseFrom inRun (endsBlank_of_append hend)]
    exact hnone front back rfl

/-- Without the blanks behind it a mark is a mark. -/
lemma exists_append_of_isMark {mark : List Char} (h : isMark mark = true) :
    ∃ core trail, mark = core ++ trail ∧ isMark core = true ∧ endsBlank core = false ∧
      ∀ c ∈ trail, isBlank c = true := by
  obtain @⟨lead, gap, word, ending, hlead, hgap, hword, hending⟩ := isMark_iff_spellsMark.mp h
  have hfold := map_foldChar_eq_importantWord_iff.mpr hword
  refine ⟨lead ++ '!' :: (gap ++ (word ++ [])), ending, by simp, ?_, ?_, isBlank_of_ending hending⟩
  · exact isMark_iff_spellsMark.mpr (.intro hlead hgap hword (.inl rfl))
  · rw [List.append_nil, endsBlank_append (List.cons_ne_nil _ _), ← List.singleton_append,
      ← List.append_assoc, endsBlank_append (ne_nil_of_map_foldChar hfold)]
    exact (isTidy_of_forall (not_isBlank_of_map_foldChar hfold)).last

end AtomicStyle.Css
