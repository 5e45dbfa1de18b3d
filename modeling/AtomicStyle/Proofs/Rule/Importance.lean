import AtomicStyle.Proofs.Css.Mark
import AtomicStyle.Proofs.Rule.Recompilation

/-!
# Importance is never lost

A value gives up its importance mark in four places: where a shorthand is dealt out, where a text
takes its canonical spelling, where a keyword is rendered and where a value is flipped.  In each of
them the mark is put back behind whatever the body has become.

**Texts.**  `splitImportance_snd_iff` says that a mark is found exactly in a text that ends in one.
So what a mark was put behind is found to be important, whatever the body is, an empty body and one
that ends in blanks or in a mark of its own included.

**Declarations.**  The four steps keep the mark one by one, and with them what an entry resolves to
(`splitImportance_sourceValue`), its rendering and its counterpart.

**Rules.**  A class rule has the highest rank exactly when one of its declarations is important
(`priority_eq_important_iff`).
-/

namespace AtomicStyle

/-! ## Texts -/

namespace Css

open Text

/-- A mark is found exactly in a text that ends in one. -/
lemma splitImportance_snd_iff {text : List Char} :
    (splitImportance text).2 = true ↔
      ∃ front mark, text = front ++ mark ∧ isMark mark = true := by
  rcases splitImportance_cases text with ⟨mark, htext, hmark, _, himportant⟩ | ⟨hsplit, hnone⟩
  · exact iff_of_true himportant ⟨_, mark, htext, hmark⟩
  · rw [hsplit]
    refine iff_of_false Bool.false_ne_true ?_
    rintro ⟨front, mark, htext, hmark⟩
    rw [hnone front mark htext] at hmark
    cases hmark

/-- A mark that was put behind a text is found, whatever the text is. -/
lemma splitImportance_attachImportance_snd (body : List Char) :
    (splitImportance (attachImportance body true)).2 = true :=
  splitImportance_snd_iff.mpr ⟨body, ' ' :: importantMark, rfl, by decide⟩

/-- Removing blanks in front keeps a mark, even if the blanks belong to it. -/
lemma splitImportance_trimStart_snd {text : List Char} (h : (splitImportance text).2 = true) :
    (splitImportance (trimStart text)).2 = true := by
  obtain ⟨front, mark, rfl, hmark⟩ := splitImportance_snd_iff.mp h
  refine splitImportance_snd_iff.mpr ?_
  rw [trimStart, List.dropWhile_append]
  split_ifs
  · refine ⟨[], trimStart mark, rfl, ?_⟩
    rw [isMark, trimStart_eq_self (startsBlank_trimStart mark)]
    exact hmark
  · exact ⟨front.dropWhile isBlank, mark, rfl, hmark⟩

/-- A text that has got a mark is important after trimming. -/
lemma splitImportance_trim_attachImportance (body : List Char) :
    (splitImportance (trim (attachImportance body true))).2 = true := by
  have hend : endsBlank (attachImportance body true) = false := by
    rw [attachImportance, if_pos rfl, endsBlank_append (List.cons_ne_nil _ _)]
    decide
  rw [trim, trimEnd_eq_self (endsBlank_trimStart hend)]
  exact splitImportance_trimStart_snd (splitImportance_attachImportance_snd body)

end Css

open Css Property

/-! ## Declarations -/

section

variable {settings : Settings} {direction : Direction}

/-- The canonical text of a value is important if the value is. -/
lemma splitImportance_stringText {strict : Bool} {property value : String} {text : List Char}
    (hvalue : (splitImportance (Text.trim value.toList)).2 = true)
    (h : stringText strict property value = .ok text) : (splitImportance text).2 = true := by
  obtain ⟨_, body, _, _, _, rfl⟩ := stringText_eq_ok.mp h
  rw [Text.tidy, splitImportance_collapse (Text.endsBlank_trim _), hvalue]
  exact splitImportance_attachImportance_snd body

/-- The longhands of an important value get important values. -/
lemma exists_important_of_mem_expand {property value : String} {l : String × Value}
    (hvalue : (splitImportance (Text.trim value.toList)).2 = true)
    (hl : l ∈ expand property (.text value)) :
    ∃ text, l.2 = .text text ∧ (splitImportance (Text.trim text.toList)).2 = true := by
  rcases mem_expand_cases hl with
    ⟨rfl, _⟩ | ⟨_, _, _, hgiven | ⟨given, text, hgiven, htext, hdealt⟩⟩
  · exact ⟨value, rfl, hvalue⟩
  · exact ⟨value, hgiven, hvalue⟩
  · obtain rfl := Value.text.inj hgiven
    obtain ⟨part, _, rfl⟩ := hdealt
    refine ⟨_, htext, ?_⟩
    rw [String.toList_ofList, hvalue]
    exact splitImportance_trim_attachImportance part

/-- **What an important entry resolves to is important before it is rendered.** -/
theorem splitImportance_sourceValue {property value : String} {l : String × Value}
    {d : Declaration} (hvalue : (splitImportance (Text.trim value.toList)).2 = true)
    (hl : l ∈ expand property (.text value)) (h : ResolvesTo settings direction l d) :
    (splitImportance d.sourceValue.toList).2 = true := by
  obtain ⟨given, hgiven, himportant⟩ := exists_important_of_mem_expand hvalue hl
  obtain ⟨text, htext, _, _, hsource, _⟩ := exists_text_of_resolvesTo h
  rw [hgiven] at htext
  rw [hsource, String.toList_ofList]
  exact splitImportance_stringText himportant htext

/-- Rendering keeps a mark. -/
lemma splitImportance_physicalValue {property : String} {value : List Char}
    (h : (splitImportance value).2 = true) :
    (splitImportance (physicalValue settings direction property value)).2 = true := by
  unfold physicalValue
  split_ifs
  · dsimp only
    split
    case h_1 =>
        rw [h]
        exact splitImportance_attachImportance_snd _
    case h_2 => exact h
  · exact h

/-- Flipping keeps a mark. -/
lemma splitImportance_flipValue {property : String} {value flipped : List Char}
    (h : (splitImportance value).2 = true) (hflip : Flip.flipValue property value = .ok flipped) :
    (splitImportance flipped).2 = true := by
  rcases Flip.flipValue_cases hflip with rfl | ⟨body, _, rfl⟩
  · exact h
  · rw [h]
    exact splitImportance_attachImportance_snd body

lemma splitImportance_flip {property : String} {value flipped : List Char}
    (h : (splitImportance value).2 = true) (hflip : settings.flip property value = .ok flipped) :
    (splitImportance flipped).2 = true := by
  rcases Settings.flip_cases hflip with hflip | rfl
  · exact splitImportance_flipValue h hflip
  · exact h

/-- A rendered declaration is important if its source is. -/
lemma isImportant_of_resolved {d : Declaration} (hd : d.Resolved settings direction)
    (h : (splitImportance d.sourceValue.toList).2 = true) : isImportant d.value = true := by
  rw [isImportant, hd.value]
  exact splitImportance_physicalValue h

/-- **The counterpart of a declaration is important if its source is.** -/
theorem isImportant_counterpart {d e : Declaration}
    (h : (splitImportance d.sourceValue.toList).2 = true)
    (hde : counterpartDeclaration settings d = .ok e) : isImportant e.value = true := by
  obtain ⟨value, hflip, rfl⟩ := counterpartDeclaration_eq_ok.mp hde
  rw [isImportant, String.toList_ofList]
  refine splitImportance_flip ?_ hflip
  rw [turned, String.toList_ofList]
  exact splitImportance_physicalValue h

end

/-! ## Rules -/

lemma foldl_max_le_iff {α : Type} (f : α → Nat) {bound : Nat} (start : Nat) (as : List α) :
    as.foldl (fun level a => max level (f a)) start ≤ bound ↔
      start ≤ bound ∧ ∀ a ∈ as, f a ≤ bound := by
  induction as generalizing start with
  | nil => simp
  | cons a as ih => rw [List.foldl_cons, ih, Nat.max_le, List.forall_mem_cons, and_assoc]

/-- The priority of a class rule is the highest level among its features. -/
lemma priority_le_iff {context : Context} {ds : List Declaration} {bound : Nat} :
    priority .block context ds ≤ bound ↔
      pseudoLevel context.pseudos ≤ bound ∧ atRuleLevel context.atRules ≤ bound ∧
        ∀ d ∈ ds, declarationLevel d ≤ bound := by
  simp only [priority, Nat.max_le, foldl_max_le_iff, Nat.zero_le, true_and, and_assoc]

lemma declarationLevel_le (d : Declaration) : declarationLevel d ≤ Rank.important.level := by
  unfold declarationLevel
  split_ifs <;> decide

/-- Only a mark gives a declaration the highest level. -/
lemma declarationLevel_le_animationReference_iff {d : Declaration} :
    declarationLevel d ≤ Rank.animationReference.level ↔ isImportant d.value = false := by
  unfold declarationLevel
  split_ifs with himportant
  · exact iff_of_false (by decide) (by simp [himportant])
  · exact iff_of_true (by decide) (Bool.not_eq_true _ ▸ himportant)
  · exact iff_of_true (by decide) (Bool.not_eq_true _ ▸ himportant)

/-- **A class rule has the highest rank exactly when one of its declarations is important.** -/
theorem priority_eq_important_iff {context : Context} {ds : List Declaration} :
    priority .block context ds = Rank.important.level ↔ ∃ d ∈ ds, isImportant d.value = true := by
  have hpseudos : pseudoLevel context.pseudos ≤ Rank.animationReference.level := by
    unfold pseudoLevel
    split_ifs <;> decide
  have hatRules : atRuleLevel context.atRules ≤ Rank.animationReference.level := by
    unfold atRuleLevel
    split_ifs <;> decide
  have hlower : Rank.animationReference.level < Rank.important.level := by decide
  have hle : priority .block context ds ≤ Rank.important.level :=
    priority_le_iff.mpr ⟨hpseudos.trans hlower.le, hatRules.trans hlower.le,
      fun d _ => declarationLevel_le d⟩
  have hnone : priority .block context ds ≤ Rank.animationReference.level ↔
      ∀ d ∈ ds, isImportant d.value = false := by
    simp only [priority_le_iff, hpseudos, hatRules, true_and,
      declarationLevel_le_animationReference_iff]
  constructor
  · intro h
    by_contra hnot
    have hall : ∀ d ∈ ds, isImportant d.value = false := by simpa using hnot
    exact absurd (h ▸ hnone.mpr hall) (Nat.not_le_of_lt hlower)
  · rintro ⟨d, hd, himportant⟩
    refine Nat.le_antisymm hle (Nat.lt_of_not_le fun h => ?_)
    rw [hnone.mp h d hd] at himportant
    cases himportant

/-! ## What an important entry comes to -/

/-- Each declaration of an entry is what one of its longhands resolves to. -/
lemma exists_of_mem_resolve {settings : Settings} {direction : Direction} {name : String}
    {value : Value} {s : DeclarationSet} (h : resolve settings direction name value = .ok s)
    {d : Declaration} (hd : d ∈ s.declarations) :
    ∃ l ∈ expand (dashed name) value, ResolvesTo settings direction l d := by
  obtain ⟨_, ds, hds, rfl⟩ := resolve_eq_ok.mp h
  exact exists_of_mem_forall₂ hds (mem_written_of_mem hd)

/-- **An importance mark is never lost**: not where the entry is resolved, in either direction, not
in the counterparts of its declarations, and not in the rank of its rule. -/
theorem important_of_resolve (settings : Settings) (name : String) {value : String}
    (hvalue : (splitImportance (Text.trim value.toList)).2 = true) :
    (∀ direction s, resolve settings direction name (.text value) = .ok s →
      ∀ d ∈ s.declarations, isImportant d.value = true ∧
        ∀ e, counterpartDeclaration settings d = .ok e → isImportant e.value = true) ∧
    ∀ context r, compileBlock settings context (.map [(.text name, .text value)]) = .ok r →
      r.priority = Rank.important.level := by
  constructor
  · intro direction s h d hd
    obtain ⟨l, hl, hld⟩ := exists_of_mem_resolve h hd
    have hsource := splitImportance_sourceValue hvalue hl hld
    refine ⟨isImportant_of_resolved (resolved_of_resolvesTo hld) hsource, fun e he => ?_⟩
    exact isImportant_counterpart hsource he
  · intro context r h
    obtain ⟨tidied, s, t, _, hs, _, rfl⟩ := exists_of_compileBlock h
    obtain ⟨d, ds, hds⟩ := List.exists_cons_of_ne_nil (declarations_ne_nil_of_resolveStyle hs)
    have hd : d ∈ s.declarations := hds ▸ List.mem_cons_self
    refine congrArg Int.ofNat (priority_eq_important_iff.mpr ⟨d, hd, ?_⟩)
    obtain ⟨written, hwritten, rfl⟩ := resolveStyle_eq_ok.mp hs
    obtain ⟨entries, hentries, name', value', hmem, _, l, hl, hld⟩ :=
      exists_longhand_of_mem hwritten (mem_written_of_mem hd)
    obtain rfl := Except.ok.inj hentries
    obtain ⟨hname, hvalue'⟩ := Prod.mk.inj (List.mem_singleton.mp hmem)
    obtain rfl := Key.text.inj hname
    subst hvalue'
    exact isImportant_of_resolved (resolved_of_resolvesTo hld)
      (splitImportance_sourceValue hvalue hl hld)

/-- A shadow list whose mark is written in capitals and with a blank inside: flipping joins the list
anew. -/
theorem important_of_flipped_shadows :
    ∃ (d e : Declaration) (r : Rule),
      resolve {} .rtl "boxShadow" (.text " 1px 2px, 0 3px  ! IMPORTANT ") =
          .ok { declarations := [d] } ∧
        counterpartDeclaration {} d = .ok e ∧
        d.value = "1px 2px, 0 3px !important" ∧ e.value = "-1px 2px,0 3px !important" ∧
        isImportant d.value = true ∧ isImportant e.value = true ∧
        compileBlock {} { pseudos := ["::before"] }
          (.map [(.text "boxShadow", .text " 1px 2px, 0 3px  ! IMPORTANT ")]) = .ok r ∧
        r.priority = Rank.important.level := by
  obtain ⟨himportant, hpriority⟩ := important_of_resolve {} "boxShadow"
    (show (splitImportance (Text.trim " 1px 2px, 0 3px  ! IMPORTANT ".toList)).2 = true by
      decide +kernel)
  have hresolve : resolve {} .rtl "boxShadow" (.text " 1px 2px, 0 3px  ! IMPORTANT ") =
      .ok { declarations := [⟨"box-shadow", "1px 2px, 0 3px !important", "box-shadow", none⟩] } :=
    eq_ok_of_toOption (by decide +kernel)
  have hcounterpart : counterpartDeclaration {}
      ⟨"box-shadow", "1px 2px, 0 3px !important", "box-shadow", none⟩ =
        .ok ⟨"box-shadow", "-1px 2px,0 3px !important", "box-shadow", none⟩ :=
    eq_ok_of_toOption (by decide +kernel)
  obtain ⟨r, hr⟩ : ∃ r, compileBlock {} { pseudos := ["::before"] }
      (.map [(.text "boxShadow", .text " 1px 2px, 0 3px  ! IMPORTANT ")]) = .ok r :=
    exists_eq_ok_of_isOk (by decide +kernel)
  obtain ⟨hd, hmirror⟩ := himportant _ _ hresolve _ List.mem_cons_self
  exact ⟨_, _, r, hresolve, hcounterpart, rfl, rfl, hd, hmirror _ hcounterpart, hr,
    hpriority _ _ hr⟩

end AtomicStyle
