import AtomicStyle.Proofs.Css.BesideMark
import AtomicStyle.Proofs.Css.Joining
import AtomicStyle.Proofs.Property.CanonicalText
import AtomicStyle.Proofs.Property.Line
import AtomicStyle.Proofs.Text.Ends

/-!
# What is left of a value

A value is refused when nothing is left of it after trimming.  But its importance mark is cut off
later, and a list of names is taken apart later still.  What is left then?

**Ends.**  Lower case, dashes and canonical durations put no blank where there was none
(`KeepsEnds`), so the body of an accepted text is trimmed at both ends.

**Bodies.**  Adapting a body empties none, and makes a mark of none, except for a list of names
(`adaptBody_eq_nil_iff`, `eq_of_isMark_adaptBody`).  So nothing is left of a text exactly when it is
an importance mark, or a list with no name in it, or with a mark for its only name
(`LeavesNothing`).

**Values.**  A number is never empty, so this is all (`body_valueText`).
-/

namespace AtomicStyle.Property

open Css Text

/-! ## Names -/

lemma keepsEnds_insertDashes (before : Option Char) (name : List Char) :
    KeepsEnds name (insertDashes before name) := by
  induction name generalizing before with
  | nil => exact .refl []
  | cons c cs ih =>
      rw [insertDashes]
      split_ifs
      · refine KeepsEnds.append (a := [c]) (b := ['-', c]) ?_ (ih _)
        refine ⟨by simp, fun _ => rfl, fun h => ?_⟩
        rwa [← List.singleton_append, endsBlank_append (List.cons_ne_nil c [])]
      · exact KeepsEnds.append (.refl [c]) (ih _)

lemma keepsEnds_markVendor (name : List Char) : KeepsEnds name (markVendor name) := by
  unfold markVendor
  split
  · refine ⟨by simp, fun _ => rfl, fun h => ?_⟩
    rwa [← List.singleton_append, endsBlank_append (List.cons_ne_nil _ _)]
  · exact .refl _

/-- **The canonical spelling keeps the ends of a name.** -/
theorem keepsEnds_dashedChars (name : List Char) : KeepsEnds name (dashedChars name) := by
  unfold dashedChars
  split
  · exact .refl _
  · exact (keepsEnds_insertDashes none _).trans
      ((keepsEnds_lowerFrom false _).trans (keepsEnds_markVendor _))

/-- A component is trimmed, and there is something of it. -/
lemma isTrimmed_of_mem_components {separators text part : List Char}
    (h : part ∈ components separators text) : IsTrimmed part ∧ part ≠ [] := by
  have hsolid := solid_of_mem_components h
  exact ⟨⟨hsolid.startsBlank, hsolid.endsBlank⟩, hsolid.ne_nil⟩

lemma joinWith_eq_nil_iff {separator : Char} {texts : List (List Char)}
    (h : ∀ text ∈ texts, text ≠ []) : joinWith separator texts = [] ↔ texts = [] := by
  cases texts with
  | nil => exact iff_of_true rfl rfl
  | cons text texts =>
      refine iff_of_false ?_ (List.cons_ne_nil text texts)
      rw [joinWith_cons]
      exact List.append_ne_nil_of_left_ne_nil (h text List.mem_cons_self) _

/-- Trimmed texts with something in each of them join to a trimmed text. -/
lemma isTrimmed_joinWith {separator : Char} {texts : List (List Char)}
    (h : ∀ text ∈ texts, IsTrimmed text ∧ text ≠ []) : IsTrimmed (joinWith separator texts) := by
  by_cases hne : texts = []
  · subst hne
    exact ⟨rfl, rfl⟩
  · have hsolid : Solid (joinWith separator texts) := by
      refine solid_joinWith hne fun text htext => ?_
      obtain ⟨htrimmed, hpresent⟩ := h text htext
      exact ⟨hpresent, trim_eq_self htrimmed.first htrimmed.last⟩
    exact ⟨hsolid.startsBlank, hsolid.endsBlank⟩

/-! ## Durations -/

lemma isBlank_of_isNumeralChar {c : Char} (h : isNumeralChar c = true) :
    isBlank c = false ∧ c ≠ '!' := by
  have hascii : ∀ c : Char, c.toNat < 0x80 → isNumeralChar c = true →
      isBlank c = false ∧ c ≠ '!' := forall_ascii (by decide)
  refine hascii c ?_ h
  simp only [isNumeralChar, Bool.or_eq_true, beq_iff_eq] at h
  rcases h with ((halphanum | rfl) | rfl) | rfl
  · exact lt_of_isNameChar (Bool.or_eq_true_iff.mpr (Or.inl halphanum))
  all_goals decide

lemma isTrimmed_of_isNumeral {text : List Char} (h : IsNumeral text) : IsTrimmed text :=
  isTrimmed_of_forall fun c hc => (isBlank_of_isNumeralChar (h c hc)).1

/-- The last letter of a duration's unit stands in no mark. -/
lemma exists_mem_formatMilliseconds (x : Binary64) :
    ∃ c ∈ formatMilliseconds x, isMarkChar c = false := by
  refine ⟨'s', ?_, by decide⟩
  unfold formatMilliseconds
  split_ifs <;> simp

/-- A canonical duration has no blanks, and it is no part of a mark. -/
lemma exists_of_durationToken? {text token : List Char} {taken : Nat}
    (h : durationToken? text = some (token, taken)) :
    (∀ c ∈ token, isBlank c = false) ∧ ∃ c ∈ token, isMarkChar c = false := by
  refine ⟨fun c hc => (isBlank_of_isNumeralChar (isNumeral_of_durationToken? h c hc)).1, ?_⟩
  unfold durationToken? at h
  split at h
  · cases h
  · split at h
    · cases h
    · split_ifs at h
      obtain ⟨rfl, _⟩ := Prod.mk.inj (Option.some.inj h)
      exact exists_mem_formatMilliseconds _

/-- **Canonical durations keep the ends of what they are found in**, and a mark that they leave was
there before. -/
theorem keepsEnds_canonicalizeFrom (before : Option Char) (skip : Nat) (text : List Char) :
    KeepsEnds (text.drop skip) (canonicalizeFrom before skip text) ∧
      ((∀ c ∈ canonicalizeFrom before skip text, isMarkChar c = true) →
        canonicalizeFrom before skip text = text.drop skip) := by
  induction text generalizing before skip with
  | nil =>
      rw [List.drop_nil]
      exact ⟨.refl [], fun _ => rfl⟩
  | cons c cs ih =>
      rw [canonicalizeFrom]
      split_ifs with hskip hbegins
      · obtain ⟨k, rfl⟩ := Nat.exists_eq_succ_of_ne_zero hskip.ne'
        exact ih _ k
      all_goals obtain rfl : skip = 0 := by omega
      · split
        case h_1 token taken htoken =>
            obtain ⟨hblank, d, hd, hforeign⟩ := exists_of_durationToken? htoken
            obtain ⟨hends, -⟩ := ih (some c) (taken - 1)
            refine ⟨?_, fun hmark => ?_⟩
            · -- the duration stands for all the characters that it took
              have htext : (c :: cs).drop 0 = c :: cs.take (taken - 1) ++ cs.drop (taken - 1) := by
                simp
              rw [htext]
              exact .append (.of_forall (List.cons_ne_nil _ _) (List.ne_nil_of_mem hd) hblank) hends
            · rw [hmark d (List.mem_append_left _ hd)] at hforeign
              cases hforeign
        case h_2 =>
            obtain ⟨hends, hsame⟩ := ih (some c) 0
            exact ⟨.append (.refl [c]) hends, fun hmark =>
              congrArg (c :: ·) (hsame (List.forall_mem_cons.mp hmark).2)⟩
      · obtain ⟨hends, hsame⟩ := ih (some c) 0
        exact ⟨.append (.refl [c]) hends, fun hmark =>
          congrArg (c :: ·) (hsame (List.forall_mem_cons.mp hmark).2)⟩

/-! ## Bodies -/

section

variable {strict : Bool} {property : String} {plain body : List Char}

lemma isTrimmed_quoteBody (plain : List Char) : IsTrimmed (quoteBody plain) :=
  ⟨rfl, by rw [quoteBody, endsBlank_concat]; decide⟩

/-- **What a trimmed body is adapted to is trimmed.** -/
theorem isTrimmed_adaptBody (hplain : IsTrimmed plain) (h : adaptBody property plain = .ok body) :
    IsTrimmed body := by
  unfold adaptBody at h
  split_ifs at h
  · obtain rfl := Except.ok.inj h
    refine isTrimmed_joinWith (List.forall_mem_map.mpr fun part hpart => ?_)
    obtain ⟨htrimmed, hne⟩ := isTrimmed_of_mem_components hpart
    have hends := keepsEnds_dashedChars part
    exact ⟨hends.isTrimmed htrimmed, mt hends.empty.mpr hne⟩
  · obtain ⟨-, rfl | rfl⟩ := contentBody_cases h
    · exact hplain
    · exact isTrimmed_quoteBody plain
  · obtain rfl := Except.ok.inj h
    exact (keepsEnds_canonicalizeFrom none 0 plain).1.isTrimmed hplain
  · exact Except.ok.inj h ▸ hplain

/-- Adapting empties no body, except for a list of names. -/
lemma adaptBody_eq_nil_iff (hnames : takesPropertyNames property = false)
    (h : adaptBody property plain = .ok body) : body = [] ↔ plain = [] := by
  unfold adaptBody at h
  rw [hnames, if_neg Bool.false_ne_true] at h
  split_ifs at h
  · obtain ⟨-, rfl | rfl⟩ := contentBody_cases h
    · rfl
    · refine iff_of_false (by simp [quoteBody]) ?_
      rintro rfl
      -- an empty body has no first character
      exact absurd h (fault_ne_ok .noFirstCharacter _)
  · obtain rfl := Except.ok.inj h
    exact (keepsEnds_canonicalizeFrom none 0 plain).1.empty.symm
  · rw [Except.ok.inj h]

/-- Adapting makes a mark of no body, except for a list of names. -/
lemma eq_of_isMark_adaptBody (hnames : takesPropertyNames property = false)
    (h : adaptBody property plain = .ok body) (hmark : isMark body = true) : body = plain := by
  have hchars := isMarkChar_of_isMark hmark
  unfold adaptBody at h
  rw [hnames, if_neg Bool.false_ne_true] at h
  split_ifs at h
  · obtain ⟨-, rfl | rfl⟩ := contentBody_cases h
    · rfl
    · exact absurd (hchars '"' (List.mem_append_right _ List.mem_cons_self)) (by decide)
  · obtain rfl := Except.ok.inj h
    exact (keepsEnds_canonicalizeFrom none 0 plain).2 hchars
  · exact (Except.ok.inj h).symm

/-- Nothing is left in front of the mark of a text that is a mark. -/
lemma splitImportance_fst_eq_nil_iff {text : List Char} (hne : text ≠ []) :
    (splitImportance text).1 = [] ↔ isMark text = true := by
  constructor
  · intro h
    rcases splitImportance_cases text with ⟨mark, htext, hmark, -, -⟩ | ⟨hsplit, -⟩
    · rw [h, List.nil_append] at htext
      rwa [htext]
    · rw [hsplit] at h
      exact absurd h hne
  · intro h
    have hsplit : splitImportance ([] ++ text) = ([], true) := splitImportance_append h rfl
    rw [List.nil_append] at hsplit
    rw [hsplit]

/-- What is left of a body with its mark behind it: all of it, unless a mark is all of it. -/
lemma splitImportance_attach_eq_nil_iff {body : List Char} {important : Bool}
    (hlast : endsBlank body = false) :
    (splitImportance (attachImportance body important)).1 = [] ↔
      body = [] ∨ important = false ∧ isMark body = true := by
  cases important with
  | true =>
      rw [splitImportance_attachImportance hlast]
      simp
  | false =>
      rw [attachImportance_false]
      by_cases hne : body = []
      · subst hne
        exact iff_of_true (by decide) (Or.inl rfl)
      · rw [splitImportance_fst_eq_nil_iff hne, or_iff_right hne, and_iff_right rfl]

lemma isTrimmed_splitImportance {text : List Char} (h : IsTrimmed text) :
    IsTrimmed (splitImportance text).1 := by
  refine ⟨?_, endsBlank_splitImportance h.last⟩
  obtain ⟨mark, htext, -⟩ := exists_splitImportance_append text
  by_cases hne : (splitImportance text).1 = []
  · rw [hne]
    rfl
  · rw [← startsBlank_append hne mark, ← htext]
    exact h.first

end

/-! ## Values -/

lemma magnitude_ne_nil (m : Nat) (q : Int) : Layout.magnitude m q ≠ [] := by
  unfold Layout.magnitude Layout.positional Layout.exponential
  dsimp only
  split_ifs <;> simp

lemma formatFloat_ne_nil (x : Binary64) : Numeric.formatFloat x ≠ [] := by
  unfold Numeric.formatFloat
  dsimp only
  split
  · exact signed_ne_nil _
  · unfold Layout.float
    split
    · decide
    · exact List.append_ne_nil_of_right_ne_nil _ (by decide)
    · refine List.append_ne_nil_of_right_ne_nil _ ?_
      split_ifs
      · decide
      · exact magnitude_ne_nil _ _

lemma format_ne_nil {n : Numeric} {text : List Char} (h : n.format = .ok text) : text ≠ [] := by
  cases n with
  | int n =>
      rw [Numeric.format] at h
      split_ifs at h
      · exact Except.ok.inj h ▸ signed_ne_nil n
      · exact absurd h (fault_ne_ok _ _)
  | float x => exact Except.ok.inj h ▸ formatFloat_ne_nil x

lemma formatDuration_ne_nil {n : Numeric} {text : List Char} (h : n.formatDuration = .ok text) :
    text ≠ [] := by
  cases n with
  | int n =>
      rw [Numeric.formatDuration] at h
      split_ifs at h
      · exact Except.ok.inj h ▸ List.cons_ne_nil _ _
      · split at h
        · exact absurd h (fault_ne_ok _ _)
        · exact Except.ok.inj h ▸ List.append_ne_nil_of_right_ne_nil _ (List.cons_ne_nil _ _)
      · exact Except.ok.inj h ▸ List.append_ne_nil_of_right_ne_nil _ (List.cons_ne_nil _ _)
  | float x =>
      obtain ⟨c, hc, -⟩ := exists_mem_formatMilliseconds x
      exact Except.ok.inj h ▸ List.ne_nil_of_mem hc

section

variable {strict : Bool} {property : String} {text : List Char}

lemma numberText_ne_nil {n : Numeric} (h : numberText strict property n = .ok text) :
    text ≠ [] := by
  obtain ⟨_, plain, hplain, h⟩ := numberText_eq_ok.mp h
  have hne := format_ne_nil hplain
  split at h
  · exact h ▸ hne
  · exact formatDuration_ne_nil h
  · exact h ▸ List.append_ne_nil_of_left_ne_nil hne _
  · exact h.2 ▸ hne

/-- No name is left of a list: there is none, or the only one is a mark and stands for the mark that
the list itself does not have. -/
def LeavesNoName (list : List Char) (important : Bool) : Prop :=
  components [','] list = [] ∨ important = false ∧
    ∃ name, components [','] list = [name] ∧ isMark (dashedChars name) = true

/-- Nothing is left of a text as a value of the property: it is an importance mark, or a list that no
name is left of. -/
def LeavesNothing (property : String) (value : Value) : Prop :=
  ∃ s, value = .text s ∧
    if takesPropertyNames property then
      LeavesNoName (splitImportance (tidy s.toList)).1 (splitImportance (tidy s.toList)).2
    else isMark (tidy s.toList) = true

/-- A mark holds no comma, so a list that is one has one name. -/
lemma joinWith_names_cases {list : List Char} {important : Bool} :
    (joinWith ',' ((components [','] list).map dashedChars) = [] ∨
        important = false ∧
          isMark (joinWith ',' ((components [','] list).map dashedChars)) = true) ↔
      LeavesNoName list important := by
  have hne : ∀ name ∈ (components [','] list).map dashedChars, name ≠ [] :=
    List.forall_mem_map.mpr fun name hname =>
      mt (keepsEnds_dashedChars name).empty.mpr (ne_nil_of_mem_components hname)
  rw [joinWith_eq_nil_iff hne, List.map_eq_nil_iff]
  refine or_congr_right (and_congr_right fun _ => ?_)
  generalize components [','] list = names
  constructor
  · intro hmark
    rcases names with _ | ⟨first, _ | ⟨second, rest⟩⟩
    · exact absurd hmark (by decide)
    · rw [List.map_singleton, joinWith_cons, List.flatMap_nil, List.append_nil] at hmark
      exact ⟨first, rfl, hmark⟩
    · rw [List.map_cons, List.map_cons, joinWith_cons_cons] at hmark
      have hcomma := isMarkChar_of_isMark hmark ','
        (List.mem_append_right _ List.mem_cons_self)
      exact absurd hcomma (by decide)
  · rintro ⟨name, rfl, hmark⟩
    rwa [List.map_singleton, joinWith_cons, List.flatMap_nil, List.append_nil]

/-- **What is left of a text.** -/
theorem body_stringText {value : String} (h : stringText strict property value = .ok text) :
    IsTrimmed (splitImportance text).1 ∧
      ((splitImportance text).1 = [] ↔ LeavesNothing property (.text value)) := by
  obtain ⟨hne, body, hadapt, -, -, rfl⟩ := stringText_eq_ok.mp h
  have htrimmed := isTrimmed_splitImportance (isTidy_tidy value.toList).isTrimmed
  have hbody := isTrimmed_adaptBody htrimmed hadapt
  have hleaves : LeavesNothing property (.text value) ↔ if takesPropertyNames property then
        LeavesNoName (splitImportance (tidy value.toList)).1 (splitImportance (tidy value.toList)).2
      else isMark (tidy value.toList) = true := by
    constructor
    · rintro ⟨s, hs, hleaves⟩
      rwa [Value.text.inj hs]
    · exact fun hleaves => ⟨value, rfl, hleaves⟩
  rw [hleaves, splitImportance_attach_eq_nil_iff hbody.last]
  refine ⟨?_, ?_⟩
  · cases himportant : (splitImportance (tidy value.toList)).2 with
    | true =>
        rw [splitImportance_attachImportance hbody.last]
        exact hbody
    | false =>
        rw [attachImportance_false]
        exact isTrimmed_splitImportance hbody
  · cases hnames : takesPropertyNames property with
    | true =>
        rw [adaptBody, hnames, if_pos rfl] at hadapt
        obtain rfl := Except.ok.inj hadapt
        rw [if_pos rfl]
        exact joinWith_names_cases
    | false =>
        rw [if_neg Bool.false_ne_true, adaptBody_eq_nil_iff hnames hadapt,
          splitImportance_fst_eq_nil_iff hne]
        -- a body that became a mark would have been one, and cut off
        refine or_iff_left ?_
        rintro ⟨himportant, hmark⟩
        rcases splitImportance_cases (tidy value.toList) with ⟨_, _, _, _, htrue⟩ | ⟨hsplit, hnone⟩
        · rw [himportant] at htrue
          cases htrue
        · rw [eq_of_isMark_adaptBody hnames hadapt hmark, hsplit] at hmark
          exact absurd (hmark.symm.trans (hnone [] _ rfl)) (by decide)

/-- **What is left of a value** is trimmed, and it is nothing only if the value leaves nothing. -/
theorem body_valueText {value : Value} (h : valueText strict property value = .ok text) :
    IsTrimmed (splitImportance text).1 ∧
      ((splitImportance text).1 = [] ↔ LeavesNothing property value) := by
  have hnumber : ∀ {n : Numeric}, numberText strict property n = .ok text →
      IsTrimmed (splitImportance text).1 ∧ (splitImportance text).1 ≠ [] := by
    intro n hn
    have hnumeral := isNumeral_numberText hn
    have hmark : '!' ∉ text := fun hc => (isBlank_of_isNumeralChar (hnumeral _ hc)).2 rfl
    rw [splitImportance_of_not_mem hmark]
    exact ⟨isTrimmed_of_isNumeral hnumeral, numberText_ne_nil hn⟩
  have hscalar : (∀ s, value ≠ .text s) → ¬LeavesNothing property value :=
    fun hvalue ⟨s, hs, _⟩ => hvalue s hs
  cases value with
  | int n => exact (hnumber h).imp_right fun hne => iff_of_false hne (hscalar nofun)
  | float x => exact (hnumber h).imp_right fun hne => iff_of_false hne (hscalar nofun)
  | text s => exact body_stringText h
  | _ => exact absurd h (reject_ne_ok _ _)

end

end AtomicStyle.Property
