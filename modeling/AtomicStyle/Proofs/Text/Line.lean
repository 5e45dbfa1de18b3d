import AtomicStyle.Proofs.Text.Ascii
import AtomicStyle.Proofs.Text.Tidy
import AtomicStyle.Text.LowerCase
import AtomicStyle.Text.Split
import Mathlib.Data.List.Basic

/-!
# Texts of one line

A text is a line when it holds no line break.  Lines are closed under taking parts and under putting
texts together, and the operations on texts keep them.

**Blanks.**  A line break is a blank, so tidying makes a line of any text (`isLine_tidy`): blanks
at the ends go, and those inside become spaces.

**Lower case.**  No letter has a line break for its small letter (`isLine_lower`).

**Reading lines.**  Lines that were joined with line breaks are told apart again
(`linesOf_intercalate`).
-/

namespace AtomicStyle.Text

/-- A text without a line break. -/
def IsLine (text : List Char) : Prop :=
  '\n' ∉ text

instance (text : List Char) : Decidable (IsLine text) :=
  inferInstanceAs (Decidable (¬_))

@[simp] lemma isLine_nil : IsLine [] := List.not_mem_nil

@[simp] lemma isLine_cons {c : Char} {text : List Char} :
    IsLine (c :: text) ↔ c ≠ '\n' ∧ IsLine text := by
  rw [IsLine, List.mem_cons, not_or, ne_comm]
  rfl

@[simp] lemma isLine_append {a b : List Char} : IsLine (a ++ b) ↔ IsLine a ∧ IsLine b := by
  rw [IsLine, List.mem_append, not_or]
  rfl

/-- A part of a line is a line. -/
lemma IsLine.mono {a b : List Char} (h : IsLine b) (hsub : a ⊆ b) : IsLine a :=
  fun hmem => h (hsub hmem)

lemma subset_joinWith {separator : Char} {text : List Char} {texts : List (List Char)}
    (h : text ∈ texts) : text ⊆ joinWith separator texts := by
  cases texts with
  | nil => exact absurd h List.not_mem_nil
  | cons first rest =>
      intro c hc
      rw [joinWith_cons, List.mem_append]
      rcases List.mem_cons.mp h with rfl | h
      · exact Or.inl hc
      · exact Or.inr (List.mem_flatMap.mpr ⟨text, h, List.mem_cons_of_mem separator hc⟩)

/-- A character that is in none of the texts and is not the separator is not in what they join
to. -/
lemma not_mem_joinWith {separator c : Char} (hsep : c ≠ separator) {texts : List (List Char)}
    (h : ∀ text ∈ texts, c ∉ text) : c ∉ joinWith separator texts := by
  cases texts with
  | nil => exact List.not_mem_nil
  | cons text texts =>
      obtain ⟨htext, htexts⟩ := List.forall_mem_cons.mp h
      rw [joinWith_cons, List.mem_append, List.mem_flatMap]
      rintro (hmem | ⟨other, hother, hmem⟩)
      · exact htext hmem
      · exact (List.mem_cons.mp hmem).elim hsep (htexts other hother)

/-- Lines joined with another character between them are a line. -/
lemma isLine_joinWith {separator : Char} (hsep : separator ≠ '\n') {texts : List (List Char)}
    (h : ∀ text ∈ texts, IsLine text) : IsLine (joinWith separator texts) :=
  not_mem_joinWith hsep.symm h

lemma mem_toList_join {c : Char} {texts : List String} (h : c ∈ (String.join texts).toList) :
    ∃ text ∈ texts, c ∈ text.toList := by
  rwa [String.toList_join, List.mem_flatMap] at h

/-- Lines put one behind the other are a line. -/
lemma isLine_join {texts : List String} (h : ∀ text ∈ texts, IsLine text.toList) :
    IsLine (String.join texts).toList := by
  intro hbreak
  obtain ⟨text, htext, hmem⟩ := mem_toList_join hbreak
  exact h text htext hmem

/-! ## Blanks -/

lemma trim_subset (text : List Char) : trim text ⊆ text :=
  (trim_sublist text).subset

/-- Collapsing leaves no line break. -/
lemma isLine_collapseFrom (inRun : Bool) (text : List Char) : IsLine (collapseFrom inRun text) := by
  induction text generalizing inRun with
  | nil => exact isLine_nil
  | cons c cs ih =>
      rw [collapseFrom]
      split_ifs with hc hrun
      · exact ih true
      · exact isLine_cons.mpr ⟨by decide, ih true⟩
      · refine isLine_cons.mpr ⟨?_, ih false⟩
        rintro rfl
        exact hc (by decide)

/-- **A tidied text is a line**, whatever the text. -/
theorem isLine_tidy (text : List Char) : IsLine (tidy text) :=
  isLine_collapseFrom false (trim text)

/-! ## Lower case -/

/-- A letter is its own small letter, or its rule moves it. -/
lemma lowerPoint_cases (n : Nat) (rules : List LowerRule) :
    lowerPoint n rules = n ∨ ∃ rule ∈ rules, rule.first ≤ n ∧ n ≤ rule.last ∧
      lowerPoint n rules = ((n : Int) + rule.shift).toNat := by
  induction rules with
  | nil => exact Or.inl rfl
  | cons rule rules ih =>
      rw [lowerPoint]
      split_ifs with hbelow hcovered
      · exact Or.inl rfl
      · have hlast : n ≤ rule.last := of_decide_eq_true (Bool.and_eq_true_iff.mp hcovered).1
        exact Or.inr ⟨rule, List.mem_cons_self, not_lt.mp hbelow, hlast, rfl⟩
      · exact ih.imp_right fun ⟨r, hr, hrest⟩ => ⟨r, List.mem_cons_of_mem rule hr, hrest⟩

/-- No rule takes a letter to the line break. -/
lemma lowerPoint_ne {n : Nat} (hn : n ≠ 10) {rules : List LowerRule}
    (hrules : ∀ rule ∈ rules, 10 < (rule.first : Int) + rule.shift) : lowerPoint n rules ≠ 10 := by
  rcases lowerPoint_cases n rules with hself | ⟨rule, hrule, hfirst, -, hpoint⟩
  · rwa [hself]
  · have hlarge := hrules rule hrule
    omega

/-- A code that is no character stands for the character of code zero. -/
lemma toNat_ofNat_cases (n : Nat) : (Char.ofNat n).toNat = n ∨ (Char.ofNat n).toNat = 0 := by
  by_cases hvalid : n.isValidChar
  · have hchar : Char.ofNat n = Char.ofNatAux n hvalid := dif_pos hvalid
    rw [hchar]
    exact Or.inl rfl
  · have hzero : Char.ofNat n = Char.ofNat 0 := dif_neg hvalid
    rw [hzero]
    exact Or.inr rfl

/-- Only its own code makes the line break. -/
lemma eq_ten_of_ofNat {n : Nat} (h : Char.ofNat n = '\n') : n = 10 := by
  have hcases := toNat_ofNat_cases n
  rw [h] at hcases
  rcases hcases with hten | hzero
  · exact hten.symm
  · exact absurd hzero (by decide)

lemma isLine_lowerChar {c : Char} (h : c ≠ '\n') : IsLine (lowerChar c) := by
  have hascii : ∀ c : Char, c.toNat < 0x80 → c ≠ '\n' → c.toLower ≠ '\n' :=
    forall_ascii (by decide)
  have hrules : ∀ rule ∈ lowerRules, 10 < (rule.first : Int) + rule.shift := by decide +kernel
  have hcode : c.toNat ≠ 10 := fun hcode => h (Char.toNat_inj.mp hcode)
  unfold lowerChar
  split_ifs with hc
  · exact isLine_cons.mpr ⟨hascii c hc h, isLine_nil⟩
  · decide
  · refine isLine_cons.mpr ⟨fun hbreak => ?_, isLine_nil⟩
    exact lowerPoint_ne hcode hrules (eq_ten_of_ofNat hbreak)

lemma isLine_lowerFrom {text : List Char} (h : IsLine text) (afterCased : Bool) :
    IsLine (lowerFrom afterCased text) := by
  induction text generalizing afterCased with
  | nil => exact isLine_nil
  | cons c cs ih =>
      obtain ⟨hc, hcs⟩ := isLine_cons.mp h
      unfold lowerFrom
      by_cases hsigma : c = 'Σ'
      · rw [if_pos hsigma]
        refine isLine_cons.mpr ⟨?_, ih hcs _⟩
        split_ifs <;> decide
      · rw [if_neg hsigma]
        exact isLine_append.mpr ⟨isLine_lowerChar hc, ih hcs _⟩

/-- **The lower case of a line is a line.** -/
theorem isLine_lower {text : List Char} (h : IsLine text) : IsLine (lower text) :=
  isLine_lowerFrom h false

/-! ## Reading lines -/

/-- Texts that were joined with a character which none of them holds are told apart again. -/
lemma splitOn_intercalate {separator : String} {c : Char} (hsep : separator.toList = [c])
    {texts : List String} (hne : texts ≠ []) (h : ∀ text ∈ texts, c ∉ text.toList) :
    ((String.intercalate separator texts).toList.splitOn c).map String.ofList = texts := by
  have hsplit : (String.intercalate separator texts).toList.splitOn c =
      texts.map String.toList := by
    rw [String.toList_intercalate, hsep]
    refine List.splitOn_intercalate c (List.forall_mem_map.mpr h) ?_
    exact fun hnil => hne (List.map_eq_nil_iff.mp hnil)
  rw [hsplit, List.map_map]
  simp [Function.comp_def]

/-- The lines of a text. -/
def linesOf (text : String) : List String :=
  (text.toList.splitOn '\n').map String.ofList

/-- Lines that were joined with line breaks are told apart again. -/
theorem linesOf_intercalate {texts : List String} (hne : texts ≠ [])
    (h : ∀ text ∈ texts, IsLine text.toList) : linesOf (String.intercalate "\n" texts) = texts :=
  splitOn_intercalate (by decide) hne h

end AtomicStyle.Text
