import AtomicStyle.Proofs.Direction.Line
import AtomicStyle.Proofs.Keyframes.Blame
import AtomicStyle.Proofs.Rule.Parts

/-!
# Rules of one line

A rule is emitted on one line for either direction if the names of its properties are lines.
Whatever else it holds is a line in any case: the values, as they are resolved, and what this file
adds to them.

**Selectors.**  A keyword is a line, and so is a percentage, which is digits, a point and the
percent sign.  What a part of a selector has around it is trimmed, a line break like any other
blank.

**Texts.**  The texts of rules are put together from such parts and from marks.

**Rules.**  `onLine_of_compileBlock` and `onLine_of_compileKeyframes` are the two kinds.
-/

namespace AtomicStyle

open Css Text

variable {settings : Settings}

/-! ## Selectors -/

/-- The digits in front of a text are no line breaks. -/
lemma isLine_readDigits {text : List Char} : IsLine (readDigits text).2 ↔ IsLine text := by
  have hbreak : digitValue? '\n' = none := by decide
  induction text with
  | nil => rfl
  | cons c cs ih =>
      rw [readDigits]
      split
      case h_1 d hd =>
          have hc : c ≠ '\n' := by
            rintro rfl
            rw [hbreak] at hd
            cases hd
          calc IsLine (readDigits cs).2
            _ ↔ IsLine cs := ih
            _ ↔ IsLine (c :: cs) := by rw [isLine_cons, and_iff_right hc]
      case h_2 => rfl

lemma isLine_of_isPercentage {part : List Char} (h : isPercentage part = true) : IsLine part := by
  have hpercent : IsLine ['%'] := by decide
  unfold isPercentage at h
  split at h
  case h_2 => cases h
  case h_1 d hd =>
      rw [← isLine_readDigits]
      unfold percentage? at hd
      split at hd
      case h_1 whole rest hwhole =>
          rw [hwhole]
          split at hd
          case h_1 hrest =>
              split_ifs at hd with hsign
              refine isLine_cons.mpr ⟨by decide, isLine_readDigits.mp ?_⟩
              rw [hrest, hsign]
              exact hpercent
          case h_2 => cases hd
      case h_2 hwhole =>
          rw [hwhole]
          exact hpercent
      case h_3 => cases hd

lemma isLine_of_isFramePart {part : List Char} (h : isFramePart part = true) : IsLine part := by
  have hkeywords : ∀ keyword ∈ frameKeywords, IsLine keyword.toList := by decide
  rcases Bool.or_eq_true_iff.mp h with h | h
  · have hkeyword := hkeywords _ (List.contains_iff_mem.mp h)
    rwa [String.toList_ofList] at hkeyword
  · exact isLine_of_isPercentage h

lemma Spells.isLine {key : Key} {selector : String} (h : Spells key selector) :
    IsLine selector.toList := by
  obtain ⟨s, _, hparts, rfl⟩ := h
  rw [String.toList_ofList]
  exact isLine_joinWith (by decide) fun part hpart => isLine_of_isFramePart (hparts part hpart)

/-! ## Texts -/

lemma isLine_braced {text : String} : IsLine (braced text).toList ↔ IsLine text.toList := by
  simp [braced, String.toList_append]

lemma isLine_emitDeclarations {s : DeclarationSet} (h : ∀ d ∈ s.declarations, d.EmitsLine) :
    IsLine (emitDeclarations s).toList := by
  refine isLine_join (List.forall_mem_map.mpr (List.forall_mem_map.mpr fun d hd => ?_))
  obtain ⟨hproperty, hvalue⟩ := h d hd
  simp [emitPair, String.toList_append, hproperty, hvalue]

lemma isLine_emitKeyframes {name : String} (hname : IsLine name.toList)
    {frames : List (String × DeclarationSet)}
    (h : ∀ f ∈ frames, IsLine f.1.toList ∧ ∀ d ∈ f.2.declarations, d.EmitsLine) :
    IsLine (emitKeyframes name frames).toList := by
  have hframes : IsLine (emitFrames frames).toList := by
    refine isLine_join (List.forall_mem_map.mpr fun f hf => ?_)
    obtain ⟨hselector, hdeclarations⟩ := h f hf
    rw [String.toList_append, isLine_append, isLine_braced]
    exact ⟨hselector, isLine_emitDeclarations hdeclarations⟩
  rw [emitKeyframes, String.toList_append, String.toList_append, isLine_append, isLine_append,
    isLine_braced]
  exact ⟨⟨by decide, hname⟩, hframes⟩

/-- The conditions of the context are lines. -/
structure Context.OnLine (context : Context) : Prop where
  pseudos : ∀ p ∈ context.pseudos, IsLine p.toList
  atRules : ∀ a ∈ context.atRules, IsLine a.toList

lemma Context.onLine_of_tidy {context tidied : Context} (h : context.tidy = .ok tidied) :
    tidied.OnLine := by
  have htidy : ∀ text, IsLine (tidyText text).toList := by
    intro text
    rw [tidyText, String.toList_ofList]
    exact isLine_tidy text.toList
  obtain ⟨rfl, _, _⟩ := tidy_eq_ok.mp h
  exact ⟨List.forall_mem_map.mpr fun p _ => htidy p, List.forall_mem_map.mpr fun a _ => htidy a⟩

lemma isLine_wrapAtRules {atRules : List String} (hrules : ∀ a ∈ atRules, IsLine a.toList)
    {text : String} (h : IsLine text.toList) : IsLine (wrapAtRules atRules text).toList := by
  induction atRules with
  | nil => exact h
  | cons atRule atRules ih =>
      obtain ⟨hrule, hrest⟩ := List.forall_mem_cons.mp hrules
      rw [wrapAtRules, List.foldr_cons, String.toList_append, isLine_append, isLine_braced]
      exact ⟨hrule, ih hrest⟩

lemma isLine_emitRule {name : String} (hname : IsLine name.toList) {context : Context}
    (hcontext : context.OnLine) {s : DeclarationSet} (h : ∀ d ∈ s.declarations, d.EmitsLine) :
    IsLine (emitRule name s context).toList := by
  refine isLine_wrapAtRules hcontext.atRules ?_
  rw [emitSelector, String.toList_append, String.toList_append, String.toList_append,
    isLine_append, isLine_append, isLine_append, isLine_braced]
  exact ⟨⟨⟨by decide, hname⟩, isLine_join hcontext.pseudos⟩, isLine_emitDeclarations h⟩

/-! ## Rules -/

/-- The rule is emitted on one line for either direction. -/
structure Rule.OnLine (r : Rule) : Prop where
  ltr : IsLine r.ltr.toList
  rtl : IsLine r.rtlText.toList

lemma isLine_identifier (category : Category) (text : String) (p : ClassPrefix) :
    IsLine (identifier category text p.text).toList := by
  intro hbreak
  exact absurd (isIdentifierChar_of_mem_identifier hbreak) (by decide)

/-- **A class rule is emitted on one line** if the names in its style are lines, whatever its
conditions. -/
theorem onLine_of_compileBlock {context : Context} {style : Value} {r : Rule}
    (hnames : NamesOnLine style) (h : compileBlock settings context style = .ok r) : r.OnLine := by
  obtain ⟨tidied, s, t, htidied, hs, ht, rfl⟩ := exists_of_compileBlock h
  have hltr := emitsLine_of_mem hnames hs
  have hrtl := emitsLine_of_mem_counterpart hnames hs ht
  have hname := isLine_identifier .block (canonicalText s tidied) settings.classPrefix
  have hcontext := Context.onLine_of_tidy htidied
  refine ⟨isLine_emitRule hname hcontext hltr, ?_⟩
  unfold Rule.rtlText ruleOf
  split_ifs
  · exact isLine_emitRule hname hcontext hltr
  · exact isLine_emitRule hname hcontext hrtl

/-- **A keyframes rule is emitted on one line** if the names in its frames are lines, whatever
blanks its selectors hold. -/
theorem onLine_of_compileKeyframes {entries : List (Key × Value)} {r : Rule}
    (hnames : ∀ e ∈ entries, NamesOnLine e.2)
    (h : compileKeyframes settings (.map entries) = .ok r) : r.OnLine := by
  obtain ⟨_, compiled, _, hr⟩ := compileKeyframes_eq_ok.mp h
  have hname : IsLine r.identifier.toList := by
    rw [← hr]
    exact isLine_identifier _ _ _
  obtain ⟨selectors, frames, mirrored, hentries, _, hframes, hmirrored, hs, ht, hltr, hrtl⟩ :=
    frames_of_compileKeyframes h
  have hselector : ∀ selector ∈ selectors, IsLine selector.toList := by
    intro selector hselector
    obtain ⟨e, _, he⟩ := exists_of_mem_forall₂ hentries hselector
    exact he.spells.isLine
  have hltrText : IsLine (emitKeyframes r.identifier frames).toList := by
    refine isLine_emitKeyframes hname fun f hf => ⟨?_, ?_⟩
    · exact hselector f.1 (hframes ▸ List.mem_map_of_mem hf)
    · obtain ⟨e, he, hstyle⟩ := exists_of_mem_forall₂ hs hf
      exact emitsLine_of_mem (hnames e he) hstyle
  have hrtlText : IsLine (emitKeyframes r.identifier mirrored).toList := by
    refine isLine_emitKeyframes hname fun m hm => ⟨?_, ?_⟩
    · exact hselector m.1 (hmirrored ▸ List.mem_map_of_mem hm)
    · obtain ⟨f, hf, hcounterpart⟩ := exists_of_mem_forall₂ ht hm
      obtain ⟨e, he, hstyle⟩ := exists_of_mem_forall₂ hs hf
      exact emitsLine_of_mem_counterpart (hnames e he) hstyle hcounterpart
  constructor
  · rw [hltr]
    exact hltrText
  · unfold Rule.rtlText
    cases hother : r.rtl with
    | none =>
        rw [Option.getD_none, hltr]
        exact hltrText
    | some text =>
        rw [Option.getD_some, hrtl text hother]
        exact hrtlText

end AtomicStyle
