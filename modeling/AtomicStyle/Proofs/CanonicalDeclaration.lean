import AtomicStyle.Proofs.Css.ComponentCount
import AtomicStyle.Proofs.Direction.Likeness
import AtomicStyle.Proofs.Property.CanonicalName
import AtomicStyle.Proofs.Property.CanonicalText

/-!
# Canonical declarations

The property and the value of a declaration may be given again as an entry of a style.  A
declaration is *canonical* when the entry is resolved to what it says.

**Shorthands.**  A shorthand stays as it is when its value has no layout.  Tidying a value may cut
it into more components but not into fewer, so its canonical text has no layout either
(`dealOut?_eq_none_of_stringText`).

**Keywords.**  A keyword that was rendered is not rendered anew, or is rendered as itself
(`physicalValue_physicalValue`).

**Declarations.**  The declarations of a style are canonical, if its names are ASCII and its values
texts and integers (`canonical_of_mem`).  Two kinds of properties are left out, for the reason given
in `AtomicStyle.Proofs.Property.CanonicalText`; and an integer given as generated content would come
back as a text, and be quoted.
-/

namespace AtomicStyle

open Css Property

/-! ## Shorthands that stay as they are -/

lemma dealOut?_eq_none_iff {s : Shorthand} {value : String} :
    dealOut? s value = none ↔
      s.layout? (components [' '] (splitImportance (Text.trim value.toList)).1).length = none ∨
        '/' ∈ (splitImportance (Text.trim value.toList)).1 := by
  unfold dealOut?
  dsimp only
  split
  case h_1 heq => simp [heq]
  case h_2 heq => simp [heq]

/-- The largest number of components that has a layout. -/
def Property.ShorthandKind.capacity : ShorthandKind → Nat
  | .box => 4
  | .pair => 2

lemma layout?_eq_none_iff {s : Shorthand} {count : Nat} :
    s.layout? count = none ↔ count = 0 ∨ s.kind.capacity < count := by
  obtain ⟨kind, longhands⟩ := s
  cases kind <;> rcases count with _ | _ | _ | _ | _ | count <;>
    simp [Shorthand.layout?, ShorthandKind.capacity]

/-- No shorthand is read by a rule of its own. -/
lemma ne_content_of_shorthand? {property : String} {s : Shorthand}
    (h : shorthand? property = some s) :
    property ≠ "content" ∧ takesLogicalKeyword property = false := by
  have hall : ∀ e ∈ shorthands, e.1 ≠ "content" ∧ takesLogicalKeyword e.1 = false := by
    decide +kernel
  exact hall _ (mem_of_lookup_eq_some h)

/-- **A shorthand that stays as it is does so with its canonical text.** -/
theorem dealOut?_eq_none_of_stringText {strict : Bool} {property value : String} {s : Shorthand}
    {text : List Char} (hs : shorthand? property = some s)
    (hnames : takesPropertyNames property = false) (htime : domain? property ≠ some .time)
    (h : stringText strict property value = .ok text) (hdeal : dealOut? s value = none) :
    dealOut? s (String.ofList text) = none := by
  obtain ⟨hne, body, hbody, _, _, rfl⟩ := stringText_eq_ok.mp h
  obtain ⟨htidy, _, hplain⟩ :=
    adaptBody_adaptBody hnames htime (Text.isTidy_tidy value.toList) hne hbody
  obtain ⟨_, hsplit, htrim⟩ := splitImportance_tidy_attachImportance htidy hplain
  have hcollapsed : body = Text.collapse (splitImportance (Text.trim value.toList)).1 := by
    rw [adaptBody, hnames, if_neg Bool.false_ne_true, if_neg (ne_content_of_shorthand? hs).1,
      if_neg htime, Text.tidy, splitImportance_collapse (Text.endsBlank_trim _)] at hbody
    exact (Except.ok.inj hbody).symm
  have hend := endsBlank_splitImportance (Text.endsBlank_trim value.toList)
  rw [dealOut?_eq_none_iff] at hdeal ⊢
  rw [String.toList_ofList, htrim, hsplit, hcollapsed]
  dsimp only
  generalize (splitImportance (Text.trim value.toList)).1 = plain at hdeal hend ⊢
  rcases hdeal with hlayout | hslash
  · have hcount := length_components_le_collapse plain
    refine Or.inl (layout?_eq_none_iff.mpr ?_)
    rcases layout?_eq_none_iff.mp hlayout with hzero | hmany
    · obtain rfl := eq_nil_of_components_eq_nil hend (List.length_eq_zero_iff.mp hzero)
      exact Or.inl rfl
    · exact Or.inr (by omega)
  · exact Or.inr (Text.mem_collapse_of_mem (by decide) hslash)

/-! ## Keywords -/

section

variable {settings : Settings}

/-- A rendered keyword is not rendered anew, or rendered as itself. -/
lemma physicalValue_attachImportance {keyword property : String} {l : Logical}
    (h : logicalKeyword? keyword = some l) (htakes : takesLogicalKeyword property = true)
    (important : Bool) :
    physicalValue settings .ltr property
        (attachImportance (settings.render .ltr l).toList important) =
      attachImportance (settings.render .ltr l).toList important := by
  have hsplit : ∀ e ∈ logicalKeywords, ∀ name ∈ e.2.renderings, ∀ important,
      splitImportance (attachImportance name.toList important) = (name.toList, important) ∧
        String.ofList (Text.lower name.toList) = name := by decide +kernel
  have hrendered : ∀ e ∈ logicalKeywords, logicalKeyword? e.2.ltr = none ∧
      ∀ l' ∈ logicalKeyword? e.2.agnostic, l'.agnostic = e.2.agnostic := by decide +kernel
  have hmem := mem_of_lookup_eq_some h
  obtain ⟨hltr, hagnostic⟩ := hrendered _ hmem
  obtain ⟨hbody, hlower⟩ := hsplit _ hmem _ (render_mem_renderings settings .ltr l) important
  have hkeyword : logicalKeyword? (String.ofList (Text.lower (splitImportance
      (attachImportance (settings.render .ltr l).toList important)).1)) =
        logicalKeyword? (settings.render .ltr l) := by
    rw [hbody, hlower]
  rcases render_ltr_cases settings with hrender | hrender
  · rw [hrender, hltr] at hkeyword
    rw [hrender]
    exact physicalValue_eq_self fun _ => hkeyword
  · rw [hrender] at hkeyword hbody ⊢
    cases hl' : logicalKeyword? l.agnostic with
    | none => exact physicalValue_eq_self fun _ => hkeyword.trans hl'
    | some l' =>
        rw [physicalValue_eq_render htakes (hkeyword.trans hl'), hbody, hrender, hagnostic l' hl']

/-- **A value is rendered once.** -/
theorem physicalValue_physicalValue (property : String) (value : List Char) :
    physicalValue settings .ltr property (physicalValue settings .ltr property value) =
      physicalValue settings .ltr property value := by
  by_cases h : ∃ l, takesLogicalKeyword property = true ∧
      logicalKeyword? (String.ofList (Text.lower (splitImportance value).1)) = some l
  · obtain ⟨l, htakes, hkeyword⟩ := h
    rw [physicalValue_eq_render htakes hkeyword, physicalValue_attachImportance hkeyword htakes]
  · have hself : physicalValue settings .ltr property value = value := by
      refine physicalValue_eq_self fun htakes => Option.eq_none_iff_forall_ne_some.mpr ?_
      exact fun l hkeyword => h ⟨l, htakes, hkeyword⟩
    rw [hself, hself]

/-- A rendered value is its own canonical text if the value is. -/
lemma stringText_physicalValue (settings : Settings) {strict : Bool} {property : String}
    {text : List Char} (h : stringText strict property (String.ofList text) = .ok text) :
    stringText strict property (String.ofList (physicalValue settings .ltr property text)) =
      .ok (physicalValue settings .ltr property text) := by
  have hall : ∀ property ∈ ["float", "clear"], ∀ strict, ∀ text ∈ keywordTexts,
      (stringText strict property (String.ofList text)).toOption = some text := by decide +kernel
  rcases physicalValue_cases settings property text with ⟨htakes, hkeyword⟩ | hplain
  · have hmem : property ∈ ["float", "clear"] := by
      simpa [takesLogicalKeyword] using htakes
    exact eq_ok_of_toOption (hall property hmem strict _ (hkeyword .ltr))
  · rw [hplain, h]

/-! ## Canonical declarations -/

/-- The entry that says what the declaration shows. -/
def Declaration.entry (d : Declaration) : Key × Value :=
  (.text d.property, .text d.value)

/-- The entry of the declaration is resolved to what it says. -/
structure Declaration.IsCanonical (settings : Settings) (d : Declaration) : Prop where
  spelled : dashed d.property = d.property
  known : settings.strictProperties = true → isKnown d.property = true
  whole : expand d.property (.text d.value) = [(d.property, .text d.value)]
  rendered : physicalName settings .ltr d.property = d.property
  text : stringText settings.strictValues d.property d.value = .ok d.value.toList
  value : physicalValue settings .ltr d.property d.value.toList = d.value.toList

/-- What an entry must be like to be read again from what it is compiled to: its name is ASCII, its
value is a text or an integer, and generated content is given as a text. -/
structure IsRereadable (name : String) (value : Value) : Prop where
  ascii : IsAscii name.toList
  kind : (∃ t, value = .text t) ∨ ∃ n, value = .int n
  content : name = "content" → ∃ t, value = .text t

lemma checkKnown_eq_ok {name : String} {value : Value} :
    checkKnown settings name value = .ok () ↔
      (settings.strictProperties = true → isKnown (dashed name) = true) := by
  rw [checkKnown, ite_reject_eq_ok]
  cases settings.strictProperties <;> simp

lemma domain?_ne_time {property : String} (h : property ∉ timeProperties) :
    domain? property ≠ some .time := by
  unfold domain?
  split_ifs with _ htime
  · simp
  · exact absurd (List.contains_iff_mem.mp htime) h
  · simp
  · simp
  · simp

section

variable {name : String} {value : Value} {l : String × Value} {text : List Char}

/-- The text of a longhand is its own canonical text. -/
lemma stringText_of_mem_expand (hentry : IsRereadable name value)
    (hl : l ∈ expand (dashed name) value)
    (hnames : takesPropertyNames (physicalName settings .ltr l.1) = false)
    (htime : domain? (physicalName settings .ltr l.1) ≠ some .time)
    (h : valueText settings.strictValues (physicalName settings .ltr l.1) l.2 = .ok text) :
    stringText settings.strictValues (physicalName settings .ltr l.1) (String.ofList text) =
      .ok text := by
  have hkind : (∃ t, l.2 = .text t) ∨ ∃ n, l.2 = .int n := by
    rcases mem_expand_cases hl with ⟨rfl, _⟩ | ⟨_, _, _, hvalue | ⟨_, text, _, htext, _⟩⟩
    · exact hentry.kind
    · rw [hvalue]
      exact hentry.kind
    · exact Or.inl ⟨text, htext⟩
  rcases hkind with ⟨t, ht⟩ | ⟨n, hn⟩
  · rw [ht] at h
    exact stringText_stringText hnames htime h
  · have hcontent : physicalName settings .ltr l.1 ≠ "content" := by
      rcases isLonghand_or_eq_of_mem_expand settings hl with hlonghand | ⟨rfl, hrendered, _⟩
      · exact hlonghand.notContent
      · dsimp only at hn ⊢
        rw [hrendered]
        intro hcontent
        obtain ⟨t, ht⟩ := hentry.content (eq_content_of_dashed hentry.ascii hcontent)
        rw [ht] at hn
        cases hn
    rw [hn] at h
    exact stringText_numberText hnames hcontent htime h

/-- The name of a longhand is found as it is, and is not expanded with its canonical text. -/
lemma name_of_mem_expand (hname : IsAscii name.toList)
    (hknown : checkKnown settings name value = .ok ()) (hl : l ∈ expand (dashed name) value)
    (hnames : takesPropertyNames (physicalName settings .ltr l.1) = false)
    (htime : domain? (physicalName settings .ltr l.1) ≠ some .time)
    (h : valueText settings.strictValues (physicalName settings .ltr l.1) l.2 = .ok text) :
    dashed (physicalName settings .ltr l.1) = physicalName settings .ltr l.1 ∧
      (settings.strictProperties = true → isKnown (physicalName settings .ltr l.1) = true) ∧
        ∀ v, v = .text (String.ofList
            (physicalValue settings .ltr (physicalName settings .ltr l.1) text)) →
          expand (physicalName settings .ltr l.1) v = [(physicalName settings .ltr l.1, v)] := by
  have hsingle : ∀ {property}, shorthand? property = none → ∀ v,
      expand property v = [(property, v)] := by
    intro property hproperty v
    simp only [expand, hproperty]
  rcases isLonghand_or_eq_of_mem_expand settings hl with hlonghand | ⟨rfl, hrendered, hwhole⟩
  · exact ⟨hlonghand.spelled, fun _ => hlonghand.known, fun v _ => hsingle hlonghand.single v⟩
  · dsimp only at h hnames htime ⊢
    rw [hrendered] at h hnames htime ⊢
    refine ⟨dashed_dashed hname, checkKnown_eq_ok.mp hknown, ?_⟩
    rintro v rfl
    rcases hwhole with hwhole | ⟨s, t, hs, rfl, hdeal⟩
    · exact hsingle hwhole _
    · have hplain : physicalValue settings .ltr (dashed name) text = text :=
        physicalValue_eq_self fun htakes => by simp [(ne_content_of_shorthand? hs).2] at htakes
      simp only [expand, hs, hplain, dealOut?_eq_none_of_stringText hs hnames htime h hdeal,
        Option.getD_none]

end

/-- **The declarations of a style are canonical.** -/
theorem canonical_of_mem {entries : List (Key × Value)} {s : DeclarationSet}
    (hentries : ∀ name value, (Key.text name, value) ∈ entries → IsRereadable name value)
    (h : resolveStyle settings .ltr (.map entries) = .ok s) {d : Declaration}
    (hd : d ∈ s.declarations) (hnames : takesPropertyNames d.property = false)
    (htime : domain? d.property ≠ some .time) : d.IsCanonical settings := by
  obtain ⟨ds, hds, rfl⟩ := resolveStyle_eq_ok.mp h
  obtain ⟨entries', heq, name, value, hmem, hknown, l, hl, hld⟩ :=
    exists_longhand_of_mem hds (mem_written_of_mem hd)
  obtain rfl := Except.ok.inj heq
  obtain ⟨text, htext, _, hproperty, _, hvalue⟩ := exists_text_of_resolvesTo hld
  have hentry := hentries name value hmem
  rw [hproperty] at hnames htime hvalue
  obtain ⟨hspelled, hknown', hwhole⟩ :=
    name_of_mem_expand hentry.ascii hknown hl hnames htime htext
  have hstring := stringText_physicalValue settings
    (stringText_of_mem_expand hentry hl hnames htime htext)
  rw [← hproperty] at hspelled hknown' hwhole hstring hvalue
  refine ⟨hspelled, hknown', ?_, ?_, ?_, ?_⟩
  · exact hwhole _ (congrArg Value.text hvalue)
  · rw [hproperty, physicalName_physicalName]
  · rw [hvalue, String.toList_ofList, hstring]
  · rw [hvalue, String.toList_ofList, physicalValue_physicalValue]

end

end AtomicStyle
