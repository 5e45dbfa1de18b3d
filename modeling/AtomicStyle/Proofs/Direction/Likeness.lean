import AtomicStyle.Proofs.Direction.Turning

/-!
# Declarations that read alike from left to right

A declaration remembers more than it shows: two that have one property and one value for
left-to-right text may be turned to different ones.  This file says how far apart they can be,
which is little.

**Names.**  Two such declarations are turned to one property, unless both properties are
renderings of a logical one (`property_turned_eq_or_isRendering`).

**Values.**  They are turned to one value, unless both values are a keyword that was rendered
(`value_turned_eq_or_mem_keywordTexts`).  Flipping leaves those keywords alone.

**Counterparts.**  So the counterparts of two such declarations are the same exactly when the turned
declarations are (`counterpart_eq_iff_agree`).
-/

namespace AtomicStyle

open Css Property

variable {settings : Settings}

/-! ## Names -/

/-- The name is a rendering of a logical property. -/
def IsRendering (name : String) : Prop :=
  ∃ property l, logical? property = some l ∧ name ∈ l.renderings

lemma IsRendering.isPlainName {name : String} (h : IsRendering name) :
    isPlainName name.toList = true := by
  obtain ⟨property, l, hl, hname⟩ := h
  exact isPlainName_of_logical? hl name hname

/-- A value of a rendered property is flipped by the rule that no property has to itself. -/
lemma IsRendering.flipBody {name : String} (h : IsRendering name) (body : List Char) :
    Flip.flipBody name body = Flip.flipGradients body := by
  have hall : ∀ e ∈ logicalProperties, ∀ name ∈ e.2.renderings,
      Flip.takesShadows name = false ∧ name ≠ "cursor" ∧ Flip.takesPosition name = false := by
    decide +kernel
  obtain ⟨property, l, hl, hname⟩ := h
  obtain ⟨hshadows, hcursor, hposition⟩ := hall _ (mem_of_lookup_eq_some hl) name hname
  simp [Flip.flipBody, hshadows, hcursor, hposition]

/-- A longhand is named by a rendering, or by itself in either direction. -/
lemma physicalName_cases (settings : Settings) (longhand : String) :
    (∀ direction, IsRendering (physicalName settings direction longhand)) ∨
      ∀ direction, physicalName settings direction longhand = longhand := by
  cases h : logical? longhand with
  | some l =>
      refine Or.inl fun direction => ⟨longhand, l, h, ?_⟩
      rw [physicalName_eq_render h]
      exact render_mem_renderings settings direction l
  | none => exact Or.inr fun _ => physicalName_eq_self h

/-- Declarations of one property are turned to one property, or each to a rendering. -/
theorem property_turned_eq_or_isRendering {d e : Declaration} (hd : d.Resolved settings .ltr)
    (he : e.Resolved settings .ltr) (h : d.property = e.property) :
    (turned settings d).property = (turned settings e).property ∨
      IsRendering (turned settings d).property ∧ IsRendering (turned settings e).property := by
  have hname : physicalName settings .ltr d.origin = physicalName settings .ltr e.origin := by
    rw [← hd.property, ← he.property, h]
  rcases physicalName_cases settings d.origin with hd' | hd' <;>
    rcases physicalName_cases settings e.origin with he' | he'
  · exact Or.inr ⟨hd' .rtl, he' .rtl⟩
  · refine Or.inr ⟨hd' .rtl, ?_⟩
    have hltr := hd' .ltr
    rw [hname, he' .ltr, ← he' .rtl] at hltr
    exact hltr
  · refine Or.inr ⟨?_, he' .rtl⟩
    have hltr := he' .ltr
    rw [← hname, hd' .ltr, ← hd' .rtl] at hltr
    exact hltr
  · refine Or.inl ?_
    rw [hd' .ltr, he' .ltr, ← hd' .rtl, ← he' .rtl] at hname
    exact hname

/-! ## Values -/

/-- The renderings of the keywords relative to the direction, with and without a mark. -/
def keywordTexts : List (List Char) :=
  ["left", "right", "inline-start", "inline-end"].flatMap fun word =>
    [word.toList, attachImportance word.toList true]

/-- Flipping leaves the rendered keywords alone. -/
lemma flip_of_mem_keywordTexts {property : String} (hproperty : takesLogicalKeyword property = true)
    {text : List Char} (h : text ∈ keywordTexts) : settings.flip property text = .ok text := by
  have hall : ∀ property ∈ ["float", "clear"], ∀ text ∈ keywordTexts,
      (Flip.flipValue property text).toOption = some text := by decide +kernel
  have hmem : property ∈ ["float", "clear"] := by
    simpa [takesLogicalKeyword] using hproperty
  unfold Settings.flip
  split_ifs
  · exact eq_ok_of_toOption (hall property hmem text h)
  · rfl

lemma attachImportance_mem_keywordTexts {keyword : String} {l : Logical}
    (h : logicalKeyword? keyword = some l) (settings : Settings) (direction : Direction)
    (important : Bool) :
    attachImportance (settings.render direction l).toList important ∈ keywordTexts := by
  have hall : ∀ e ∈ logicalKeywords, ∀ name ∈ e.2.renderings, ∀ important,
      attachImportance name.toList important ∈ keywordTexts := by decide +kernel
  exact hall _ (mem_of_lookup_eq_some h) _ (render_mem_renderings settings direction l) important

/-- A source value of a property that takes keywords is rendered to a keyword text in both
directions, or left as it is in both. -/
lemma physicalValue_cases (settings : Settings) (property : String) (value : List Char) :
    takesLogicalKeyword property = true ∧
        (∀ direction, physicalValue settings direction property value ∈ keywordTexts) ∨
      ∀ direction, physicalValue settings direction property value = value := by
  cases htakes : takesLogicalKeyword property with
  | false => exact Or.inr fun _ => physicalValue_eq_self (by simp [htakes])
  | true =>
      cases hkeyword : logicalKeyword? (String.ofList (Text.lower (splitImportance value).1)) with
      | some l =>
          refine Or.inl ⟨rfl, fun direction => ?_⟩
          rw [physicalValue_eq_render htakes hkeyword]
          exact attachImportance_mem_keywordTexts hkeyword settings direction _
      | none => exact Or.inr fun _ => physicalValue_eq_self fun _ => hkeyword

/-- A declaration keeps its value when it is turned, unless the value is a rendered keyword. -/
lemma value_turned_cases {d : Declaration} (hd : d.Resolved settings .ltr) :
    (turned settings d).value = d.value ∨
      takesLogicalKeyword (turned settings d).property = true ∧
        d.value.toList ∈ keywordTexts ∧ (turned settings d).value.toList ∈ keywordTexts := by
  have hturned : (turned settings d).value.toList =
      physicalValue settings .rtl (turned settings d).property d.sourceValue.toList :=
    String.toList_ofList
  rcases physicalName_cases settings d.origin with hname | hname
  · have hplain : ∀ direction,
        physicalValue settings direction (physicalName settings direction d.origin)
          d.sourceValue.toList = d.sourceValue.toList := by
      intro direction
      obtain ⟨property, l, hl, hmem⟩ := hname direction
      simp [physicalValue, takesLogicalKeyword_of_logical? hl _ hmem]
    refine Or.inl (String.toList_inj.mp ?_)
    rw [hturned, hd.value, hd.property]
    exact (hplain .rtl).trans (hplain .ltr).symm
  · have hproperty : (turned settings d).property = d.property := by
      rw [hd.property, hname .ltr]
      exact hname .rtl
    rw [hproperty] at hturned ⊢
    rcases physicalValue_cases settings d.property d.sourceValue.toList with
      ⟨htakes, htexts⟩ | hkeep
    · refine Or.inr ⟨htakes, ?_, ?_⟩
      · rw [hd.value]
        exact htexts .ltr
      · rw [hturned]
        exact htexts .rtl
    · refine Or.inl (String.toList_inj.mp ?_)
      rw [hturned, hd.value, hkeep .rtl, hkeep .ltr]

/-- Declarations of one property and one value are turned to one value, or each to a rendered
keyword. -/
theorem value_turned_eq_or_mem_keywordTexts {d e : Declaration} (hd : d.Resolved settings .ltr)
    (he : e.Resolved settings .ltr) (hproperty : d.property = e.property)
    (hvalue : d.value = e.value) :
    (turned settings d).value = (turned settings e).value ∨
      (takesLogicalKeyword (turned settings d).property = true ∧
          (turned settings d).value.toList ∈ keywordTexts) ∧
        takesLogicalKeyword (turned settings e).property = true ∧
          (turned settings e).value.toList ∈ keywordTexts := by
  have hnot : ∀ {name : String}, IsRendering name → ¬takesLogicalKeyword name = true := by
    rintro name ⟨property, l, hl, hmem⟩
    simp [takesLogicalKeyword_of_logical? hl name hmem]
  have hnames := property_turned_eq_or_isRendering hd he hproperty
  rcases value_turned_cases hd with hd' | ⟨hdtakes, hdvalue, hdturned⟩ <;>
    rcases value_turned_cases he with he' | ⟨hetakes, hevalue, heturned⟩
  · exact Or.inl (by rw [hd', he', hvalue])
  · rcases hnames with hnames | ⟨_, hrendering⟩
    · refine Or.inr ⟨⟨hnames ▸ hetakes, ?_⟩, hetakes, heturned⟩
      rwa [hd', hvalue]
    · exact absurd hetakes (hnot hrendering)
  · rcases hnames with hnames | ⟨hrendering, _⟩
    · refine Or.inr ⟨⟨hdtakes, hdturned⟩, hnames ▸ hdtakes, ?_⟩
      rwa [he', ← hvalue]
    · exact absurd hdtakes (hnot hrendering)
  · exact Or.inr ⟨⟨hdtakes, hdturned⟩, hetakes, heturned⟩

/-! ## Counterparts -/

/-- The declarations are turned to one property and one value. -/
def Agree (settings : Settings) (d e : Declaration) : Prop :=
  (turned settings d).property = (turned settings e).property ∧
    (turned settings d).value = (turned settings e).value

/-- Values of rendered properties are flipped alike. -/
lemma flip_of_isRendering {p q : String} (hp : IsRendering p) (hq : IsRendering q)
    (value : List Char) : settings.flip p value = settings.flip q value := by
  simp only [Settings.flip, Flip.flipValue, hp.flipBody, hq.flipBody]

lemma property_of_counterpartDeclaration {d d' : Declaration}
    (h : counterpartDeclaration settings d = .ok d') :
    d'.property = (turned settings d).property := by
  obtain ⟨value, _, rfl⟩ := counterpartDeclaration_eq_ok.mp h
  rfl

lemma flip_of_counterpartDeclaration {d d' : Declaration}
    (h : counterpartDeclaration settings d = .ok d') :
    settings.flip (turned settings d).property (turned settings d).value.toList =
      .ok d'.value.toList := by
  obtain ⟨value, hvalue, rfl⟩ := counterpartDeclaration_eq_ok.mp h
  rw [hvalue, String.toList_ofList]

section

variable {d e d' e' : Declaration}

/-- Flipping makes no two values one: the counterparts have one value if the turned declarations do,
and else each keeps the keyword that it was turned to. -/
lemma value_counterpart_cases (hd : d.Resolved settings .ltr) (he : e.Resolved settings .ltr)
    (hproperty : d.property = e.property) (hvalue : d.value = e.value)
    (hd' : counterpartDeclaration settings d = .ok d')
    (he' : counterpartDeclaration settings e = .ok e') :
    (turned settings d).value = (turned settings e).value ∧ d'.value = e'.value ∨
      d'.value = (turned settings d).value ∧ e'.value = (turned settings e).value := by
  have hdflip := flip_of_counterpartDeclaration hd'
  have heflip := flip_of_counterpartDeclaration he'
  rcases value_turned_eq_or_mem_keywordTexts hd he hproperty hvalue with
    hsame | ⟨⟨hdtakes, hdtext⟩, hetakes, hetext⟩
  · refine Or.inl ⟨hsame, ?_⟩
    rw [← hsame] at heflip
    rcases property_turned_eq_or_isRendering hd he hproperty with hnames | ⟨hdname, hename⟩
    · rw [← hnames, hdflip] at heflip
      exact String.toList_inj.mp (Except.ok.inj heflip)
    · rw [flip_of_isRendering hename hdname, hdflip] at heflip
      exact String.toList_inj.mp (Except.ok.inj heflip)
  · rw [flip_of_mem_keywordTexts hdtakes hdtext] at hdflip
    rw [flip_of_mem_keywordTexts hetakes hetext] at heflip
    exact Or.inr ⟨(String.toList_inj.mp (Except.ok.inj hdflip)).symm,
      (String.toList_inj.mp (Except.ok.inj heflip)).symm⟩

/-- **Declarations that read alike from left to right have like counterparts exactly when they
agree.** -/
theorem counterpart_eq_iff_agree (hd : d.Resolved settings .ltr) (he : e.Resolved settings .ltr)
    (hproperty : d.property = e.property) (hvalue : d.value = e.value)
    (hd' : counterpartDeclaration settings d = .ok d')
    (he' : counterpartDeclaration settings e = .ok e') :
    d'.property = e'.property ∧ d'.value = e'.value ↔ Agree settings d e := by
  rw [property_of_counterpartDeclaration hd', property_of_counterpartDeclaration he', Agree]
  refine and_congr_right fun _ => ?_
  rcases value_counterpart_cases hd he hproperty hvalue hd' he' with
    ⟨hturned, hvalues⟩ | ⟨hdvalue, hevalue⟩
  · simp only [hturned, hvalues]
  · rw [hdvalue, hevalue]

/-- Of declarations that read alike from left to right both have a counterpart if one has: what is
flipped is the same, or a keyword, and that is not flipped. -/
lemma exists_counterpartDeclaration (hd : d.Resolved settings .ltr) (he : e.Resolved settings .ltr)
    (hproperty : d.property = e.property) (hvalue : d.value = e.value)
    (hd' : counterpartDeclaration settings d = .ok d') :
    ∃ e', counterpartDeclaration settings e = .ok e' := by
  have hdflip := flip_of_counterpartDeclaration hd'
  have hflip : ∃ value, settings.flip (turned settings e).property
      (turned settings e).value.toList = .ok value := by
    rcases value_turned_eq_or_mem_keywordTexts hd he hproperty hvalue with
      hsame | ⟨_, hetakes, hetext⟩
    · rw [← hsame]
      rcases property_turned_eq_or_isRendering hd he hproperty with hnames | ⟨hdname, hename⟩
      · exact ⟨_, hnames ▸ hdflip⟩
      · exact ⟨_, (flip_of_isRendering hename hdname _).trans hdflip⟩
    · exact ⟨_, flip_of_mem_keywordTexts hetakes hetext⟩
  obtain ⟨value, hvalue⟩ := hflip
  exact ⟨_, counterpartDeclaration_eq_ok.mpr ⟨value, hvalue, rfl⟩⟩

end

end AtomicStyle
