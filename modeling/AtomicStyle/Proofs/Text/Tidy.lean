import AtomicStyle.Text.Blank
import Mathlib.Data.List.Basic
import Mathlib.Data.List.Induction
import Mathlib.Data.List.TakeWhile
import Mathlib.Tactic.Lemma
import Mathlib.Tactic.SplitIfs

/-!
# Tidy texts

A text is tidy when no blank stands at its ends and each run of blanks inside is one space.
Tidying makes a text tidy, and leaves a tidy text alone.

**Ends.**  `startsBlank` and `endsBlank` ask about the two ends.  What `trim` gives has no blank
there, and a text without one is its own trimmed text (`trim_eq_self`).

**Runs.**  `collapseFrom` may be cut at any point, if it is told whether it stands in a run
(`collapseFrom_append`).  It never makes a text longer, so a front part of a collapsed text is
collapsed (`collapse_of_append`).

**Tidiness.**  `IsTidy` holds the three conditions.  `isTidy_tidy` and `IsTidy.tidy_eq` say that
tidying is the retraction onto the tidy texts.
-/

namespace AtomicStyle.Text

/-! ## Ends -/

/-- Whether the text begins with a blank. -/
def startsBlank (text : List Char) : Bool :=
  text.head?.any isBlank

/-- Whether the text ends in a blank. -/
def endsBlank (text : List Char) : Bool :=
  text.getLast?.any isBlank

@[simp] lemma startsBlank_cons (c : Char) (cs : List Char) :
    startsBlank (c :: cs) = isBlank c := rfl

@[simp] lemma endsBlank_concat (text : List Char) (c : Char) :
    endsBlank (text ++ [c]) = isBlank c := by
  simp [endsBlank]

/-- The end of a text is the end of what stands last in it. -/
lemma endsBlank_append {b : List Char} (hb : b ≠ []) (a : List Char) :
    endsBlank (a ++ b) = endsBlank b := by
  rw [endsBlank, endsBlank, List.getLast?_append_of_ne_nil _ hb]

/-- What stands last in a text that does not end in a blank does not end in one. -/
lemma endsBlank_of_append {a b : List Char} (h : endsBlank (a ++ b) = false) :
    endsBlank b = false := by
  by_cases hb : b = []
  · rw [hb]
    rfl
  · rwa [endsBlank_append hb] at h

lemma startsBlank_append {a : List Char} (ha : a ≠ []) (b : List Char) :
    startsBlank (a ++ b) = startsBlank a := by
  obtain ⟨c, cs, rfl⟩ := List.exists_cons_of_ne_nil ha
  rfl

lemma trimStart_eq_self {text : List Char} (h : startsBlank text = false) :
    trimStart text = text := by
  cases text with
  | nil => rfl
  | cons c cs => rw [trimStart, List.dropWhile_cons_of_neg (by simpa using h)]

lemma trimStart_append_of_forall {lead : List Char} (h : ∀ c ∈ lead, isBlank c = true)
    (text : List Char) : trimStart (lead ++ text) = trimStart text :=
  List.dropWhile_append_of_pos h

/-- A text is blanks and what is left without those in front. -/
lemma exists_append_trimStart (text : List Char) :
    ∃ lead, text = lead ++ trimStart text ∧ ∀ c ∈ lead, isBlank c = true :=
  ⟨text.takeWhile isBlank, List.takeWhile_append_dropWhile.symm,
    fun _ hc => List.mem_takeWhile_imp hc⟩

lemma startsBlank_trimStart (text : List Char) : startsBlank (trimStart text) = false := by
  induction text with
  | nil => rfl
  | cons c cs ih =>
      rw [trimStart, List.dropWhile_cons]
      split_ifs with hc
      · exact ih
      · exact Bool.not_eq_true _ ▸ hc

lemma endsBlank_trimStart {text : List Char} (h : endsBlank text = false) :
    endsBlank (trimStart text) = false := by
  obtain ⟨lead, htext, _⟩ := exists_append_trimStart text
  rw [htext] at h
  exact endsBlank_of_append h

lemma trimEnd_eq_self {text : List Char} (h : endsBlank text = false) : trimEnd text = text := by
  rcases List.eq_nil_or_concat' text with rfl | ⟨front, c, rfl⟩
  · rfl
  · exact trimEnd_append_of_not_isBlank front ((endsBlank_concat front c).symm.trans h)

lemma endsBlank_trimEnd (text : List Char) : endsBlank (trimEnd text) = false := by
  induction text using List.reverseRecOn with
  | nil => rfl
  | append_singleton front c ih =>
      cases hc : isBlank c with
      | true => rwa [trimEnd_append_of_isBlank front hc]
      | false => rw [trimEnd_append_of_not_isBlank front hc, endsBlank_concat, hc]

/-- A text ends in its trimmed text and blanks. -/
lemma exists_trimEnd_append (text : List Char) :
    ∃ trail, text = trimEnd text ++ trail ∧ ∀ c ∈ trail, isBlank c = true := by
  induction text with
  | nil => exact ⟨[], rfl, by simp⟩
  | cons c cs ih =>
      obtain ⟨trail, hcs, htrail⟩ := ih
      rw [trimEnd]
      cases he : trimEnd cs with
      | cons d ds => exact ⟨trail, by rw [he] at hcs; rw [hcs]; rfl, htrail⟩
      | nil =>
          rw [he, List.nil_append] at hcs
          by_cases hc : isBlank c = true
          · refine ⟨c :: cs, by simp [hc], ?_⟩
            rw [hcs]
            simpa [hc] using htrail
          · exact ⟨trail, by simp [hc, hcs], htrail⟩

/-- A text is its trimmed text with blanks around it. -/
lemma exists_append_trim (text : List Char) :
    ∃ lead trail, text = lead ++ (trim text ++ trail) ∧ (∀ c ∈ lead, isBlank c = true) ∧
      ∀ c ∈ trail, isBlank c = true := by
  obtain ⟨lead, htext, hlead⟩ := exists_append_trimStart text
  obtain ⟨trail, htrail, hblank⟩ := exists_trimEnd_append (trimStart text)
  refine ⟨lead, trail, ?_, hlead, hblank⟩
  rw [trim, ← htrail]
  exact htext

lemma trim_sublist (text : List Char) : (trim text).Sublist text := by
  obtain ⟨lead, trail, htext, _, _⟩ := exists_append_trim text
  conv_rhs => rw [htext]
  exact (List.sublist_append_left _ trail).trans (List.sublist_append_right lead _)

lemma startsBlank_trim (text : List Char) : startsBlank (trim text) = false := by
  obtain ⟨trail, htrail, _⟩ := exists_trimEnd_append (trimStart text)
  by_cases hne : trim text = []
  · rw [hne]
    rfl
  · rw [← startsBlank_append hne trail, trim, ← htrail]
    exact startsBlank_trimStart text

lemma endsBlank_trim (text : List Char) : endsBlank (trim text) = false :=
  endsBlank_trimEnd (trimStart text)

/-- A text without a blank at its ends is its trimmed text. -/
theorem trim_eq_self {text : List Char} (hstart : startsBlank text = false)
    (hend : endsBlank text = false) : trim text = text := by
  rw [trim, trimStart_eq_self hstart, trimEnd_eq_self hend]

/-! ## Runs -/

/-- Whether a run of blanks goes on behind the text; `inRun` says whether one stood in front. -/
def endsRun (inRun : Bool) (text : List Char) : Bool :=
  if text = [] then inRun else endsBlank text

lemma collapseFrom_cons_of_not_isBlank {c : Char} (hc : isBlank c = false) {inRun : Bool}
    {cs : List Char} : collapseFrom inRun (c :: cs) = c :: collapseFrom false cs := by
  rw [collapseFrom, hc]
  rfl

lemma collapseFrom_true_cons {c : Char} (hc : isBlank c = true) {cs : List Char} :
    collapseFrom true (c :: cs) = collapseFrom true cs := by
  rw [collapseFrom, hc]
  rfl

lemma collapseFrom_false_cons {c : Char} (hc : isBlank c = true) {cs : List Char} :
    collapseFrom false (c :: cs) = ' ' :: collapseFrom true cs := by
  rw [collapseFrom, hc]
  rfl

/-- Collapsing may be cut at any point. -/
theorem collapseFrom_append (inRun : Bool) (a b : List Char) :
    collapseFrom inRun (a ++ b) = collapseFrom inRun a ++ collapseFrom (endsRun inRun a) b := by
  induction a generalizing inRun with
  | nil => rfl
  | cons c cs ih =>
      have hruns : ∀ inRun, endsRun inRun (c :: cs) = endsRun (isBlank c) cs := by
        intro inRun
        cases cs with
        | nil => rfl
        | cons d ds => simp [endsRun, endsBlank]
      simp only [List.cons_append, collapseFrom, hruns]
      cases hc : isBlank c <;> cases inRun <;> simp [ih]

/-- Behind a text that does not end in a blank no run goes on. -/
lemma collapse_append {a : List Char} (ha : endsBlank a = false) (b : List Char) :
    collapse (a ++ b) = collapse a ++ collapse b := by
  have hruns : endsRun false a = false := by
    rw [endsRun]
    split_ifs
    · rfl
    · exact ha
  rw [collapse, collapseFrom_append, hruns]
  rfl

lemma length_collapseFrom_le (inRun : Bool) (text : List Char) :
    (collapseFrom inRun text).length ≤ text.length := by
  induction text generalizing inRun with
  | nil => exact Nat.le_refl 0
  | cons c cs ih =>
      rw [collapseFrom]
      split_ifs
      · exact Nat.le_succ_of_le (ih true)
      · exact Nat.succ_le_succ (ih true)
      · exact Nat.succ_le_succ (ih false)

lemma collapseFrom_collapseFrom (inRun : Bool) (text : List Char) :
    collapseFrom inRun (collapseFrom inRun text) = collapseFrom inRun text := by
  induction text generalizing inRun with
  | nil => rfl
  | cons c cs ih =>
      have hspace : isBlank ' ' = true := by decide
      rw [collapseFrom]
      split_ifs with hc hrun
      · subst hrun
        exact ih true
      · rw [collapseFrom, if_pos hspace, if_neg hrun, ih true]
      · rw [collapseFrom, if_neg hc, ih false]

/-- A front part of a collapsed text is collapsed. -/
lemma collapse_of_append {a b : List Char} (h : collapse (a ++ b) = a ++ b) : collapse a = a := by
  rw [collapse, collapseFrom_append] at h
  have hlength := congrArg List.length h
  have ha := length_collapseFrom_le false a
  have hb := length_collapseFrom_le (endsRun false a) b
  rw [List.length_append, List.length_append] at hlength
  exact (List.append_inj h (by omega)).1

/-- Where there is no blank, there is nothing to collapse. -/
lemma collapse_eq_self {text : List Char} (h : ∀ c ∈ text, isBlank c = false) :
    collapse text = text := by
  rw [collapse]
  induction text with
  | nil => rfl
  | cons c cs ih =>
      obtain ⟨hc, hcs⟩ := List.forall_mem_cons.mp h
      rw [collapseFrom_cons_of_not_isBlank hc, ih hcs]

/-- Collapsing keeps what is no blank. -/
lemma mem_collapse_of_mem {c : Char} (hc : isBlank c = false) {text : List Char} (h : c ∈ text) :
    c ∈ collapse text := by
  have hfrom : ∀ inRun, c ∈ collapseFrom inRun text := by
    induction text with
    | nil => exact absurd h List.not_mem_nil
    | cons d ds ih =>
        intro inRun
        rw [collapseFrom]
        rcases List.mem_cons.mp h with rfl | h
        · rw [hc]
          exact List.mem_cons_self
        · split_ifs
          · exact ih h true
          · exact List.mem_cons_of_mem _ (ih h true)
          · exact List.mem_cons_of_mem _ (ih h false)
  exact hfrom false

/-- Removing the blanks in front is the same before and after collapsing. -/
lemma trimStart_collapseFrom (inRun : Bool) (text : List Char) :
    trimStart (collapseFrom inRun text) = collapse (trimStart text) := by
  induction text generalizing inRun with
  | nil => rfl
  | cons c cs ih =>
      have hspace : isBlank ' ' = true := by decide
      rw [collapseFrom]
      split_ifs with hc hrun
      · rw [ih true, trimStart, trimStart, List.dropWhile_cons_of_pos hc]
      · rw [trimStart, List.dropWhile_cons_of_pos hspace, ← trimStart, ih true, trimStart,
          trimStart, List.dropWhile_cons_of_pos hc]
      · rw [trimStart, trimStart, List.dropWhile_cons_of_neg hc, List.dropWhile_cons_of_neg hc,
          collapse, collapseFrom, if_neg hc]

/-- Collapsing brings in nothing but the space. -/
lemma mem_of_mem_collapseFrom {c : Char} {inRun : Bool} {text : List Char}
    (h : c ∈ collapseFrom inRun text) : c = ' ' ∨ c ∈ text := by
  induction text generalizing inRun with
  | nil => exact absurd h List.not_mem_nil
  | cons d ds ih =>
      rw [collapseFrom] at h
      split_ifs at h
      · exact (ih h).imp_right (List.mem_cons_of_mem d)
      · rcases List.mem_cons.mp h with rfl | h
        · exact Or.inl rfl
        · exact (ih h).imp_right (List.mem_cons_of_mem d)
      · rcases List.mem_cons.mp h with rfl | h
        · exact Or.inr List.mem_cons_self
        · exact (ih h).imp_right (List.mem_cons_of_mem d)

lemma trimEnd_append_of_forall (text : List Char) {trail : List Char}
    (h : ∀ c ∈ trail, isBlank c = true) : trimEnd (text ++ trail) = trimEnd text := by
  induction trail using List.reverseRecOn with
  | nil => rw [List.append_nil]
  | append_singleton front c ih =>
      rw [← List.append_assoc, trimEnd_append_of_isBlank _ (h c (by simp))]
      exact ih fun d hd => h d (List.mem_append_left _ hd)

lemma collapse_eq_nil_iff {text : List Char} : collapse text = [] ↔ text = [] := by
  cases text with
  | nil => exact iff_of_true rfl rfl
  | cons c cs =>
      refine iff_of_false ?_ (List.cons_ne_nil c cs)
      cases hc : isBlank c with
      | true =>
          rw [collapse, collapseFrom_false_cons hc]
          exact List.cons_ne_nil _ _
      | false =>
          rw [collapse, collapseFrom_cons_of_not_isBlank hc]
          exact List.cons_ne_nil _ _

lemma startsBlank_collapse {text : List Char} (h : startsBlank text = false) :
    startsBlank (collapse text) = false := by
  cases text with
  | nil => rfl
  | cons c cs =>
      have hc : isBlank c = false := h
      rw [collapse, collapseFrom_cons_of_not_isBlank hc]
      exact hc

lemma endsBlank_collapse {text : List Char} (h : endsBlank text = false) :
    endsBlank (collapse text) = false := by
  rcases List.eq_nil_or_concat' text with rfl | ⟨front, c, rfl⟩
  · rfl
  · rw [endsBlank_concat] at h
    rw [collapse, collapseFrom_append, collapseFrom_cons_of_not_isBlank h, collapseFrom_nil,
      endsBlank_concat, h]

/-- **A collapsed text is trimmed to the tidy text**, whether a run stood in front of it or not. -/
theorem trim_collapseFrom (inRun : Bool) (text : List Char) :
    trim (collapseFrom inRun text) = tidy text := by
  obtain ⟨trail, htext, htrail⟩ := exists_trimEnd_append (trimStart text)
  have hend := endsBlank_trimEnd (trimStart text)
  have hblank : ∀ c ∈ collapse trail, isBlank c = true := by
    intro c hc
    rcases mem_of_mem_collapseFrom hc with rfl | hc
    · decide
    · exact htrail c hc
  rw [trim, trimStart_collapseFrom, htext, collapse_append hend, trimEnd_append_of_forall _ hblank,
    trimEnd_eq_self (endsBlank_collapse hend)]
  rfl

/-! ## Tidiness -/

/-- No blank stands at either end, and each run of blanks inside is one space. -/
structure IsTidy (text : List Char) : Prop where
  first : startsBlank text = false
  last : endsBlank text = false
  collapsed : collapse text = text

/-- **Tidying makes a text tidy.** -/
theorem isTidy_tidy (text : List Char) : IsTidy (tidy text) where
  first := startsBlank_collapse (startsBlank_trim text)
  last := endsBlank_collapse (endsBlank_trim text)
  collapsed := collapseFrom_collapseFrom false (trim text)

/-- **A tidy text is its own canonical spelling.** -/
theorem IsTidy.tidy_eq {text : List Char} (h : IsTidy text) : tidy text = text := by
  rw [tidy, trim_eq_self h.first h.last, h.collapsed]

/-- A front part of a tidy text is tidy if it does not end in a blank. -/
lemma IsTidy.of_append {a b : List Char} (h : IsTidy (a ++ b)) (ha : endsBlank a = false) :
    IsTidy a := by
  refine ⟨?_, ha, collapse_of_append h.collapsed⟩
  by_cases hne : a = []
  · rw [hne]
    rfl
  · exact (startsBlank_append hne b).symm.trans h.first

/-- Tidy texts with a space between them are tidy. -/
lemma IsTidy.append_space {a b : List Char} (ha : IsTidy a) (hb : IsTidy b) (hane : a ≠ [])
    (hbne : b ≠ []) : IsTidy (a ++ ' ' :: b) := by
  obtain ⟨c, cs, rfl⟩ := List.exists_cons_of_ne_nil hbne
  refine ⟨(startsBlank_append hane _).trans ha.first, ?_, ?_⟩
  · rw [endsBlank_append (by simp), ← List.singleton_append, endsBlank_append hbne]
    exact hb.last
  · have hc : isBlank c = false := hb.first
    have hspace : collapse (' ' :: c :: cs) = ' ' :: collapse (c :: cs) := by
      rw [collapse, collapseFrom_false_cons (by decide), collapseFrom_cons_of_not_isBlank hc,
        collapse, collapseFrom_cons_of_not_isBlank hc]
    rw [collapse_append ha.last, ha.collapsed, hspace, hb.collapsed]

/-- A text without blanks is tidy. -/
lemma isTidy_of_forall {text : List Char} (h : ∀ c ∈ text, isBlank c = false) : IsTidy text where
  first := by
    cases text with
    | nil => rfl
    | cons c cs => exact h c List.mem_cons_self
  last := by
    rcases List.eq_nil_or_concat' text with rfl | ⟨front, c, rfl⟩
    · rfl
    · rw [endsBlank_concat]
      exact h c (by simp)
  collapsed := collapse_eq_self h

end AtomicStyle.Text
