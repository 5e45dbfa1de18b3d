import AtomicStyle.Proofs.Css.Joining
import AtomicStyle.Proofs.Css.Spacing
import AtomicStyle.Proofs.Direction.Likeness
import AtomicStyle.Proofs.Direction.Modes
import AtomicStyle.Proofs.Property.CanonicalText
import AtomicStyle.Proofs.Rule.Variant

/-!
# Shadows that show no direction

The flip of a shadow list cuts it at commas, and each shadow at spaces, negates the horizontal
offsets and joins what it has.  A list without such an offset has nothing to negate.  Does it come
back as it was?

**Respacing.**  Cut and joined again, a list is *respaced* (`respace`): no space is left beside its
commas.  That is all the flip does to shadows that show no direction (`flipShadows_eq_respace`).

**Canonical texts.**  A canonical text is tidy, so the spaces inside a shadow come back
(`joinWith_components`).  What is lost are the spaces beside commas, and the commas with nothing
between them: `respace_eq_self_iff` says which texts have neither.
-/

namespace AtomicStyle

open Css Text

/-! ## Pieces of collapsed texts -/

namespace Css

/-- Where a collapsed text begins with a blank, that is a space, and no blank follows. -/
lemma collapseFrom_cons_eq_self_iff {inRun : Bool} {c : Char} {cs : List Char} :
    collapseFrom inRun (c :: cs) = c :: cs ↔
      (isBlank c = true → inRun = false ∧ c = ' ') ∧ collapseFrom (isBlank c) cs = cs := by
  cases hc : isBlank c with
  | false => simp [collapseFrom_cons_of_not_isBlank hc]
  | true =>
      cases inRun with
      | false => simp [collapseFrom_false_cons hc, eq_comm]
      | true =>
          have hlength := length_collapseFrom_le true cs
          have hne : collapseFrom true cs ≠ c :: cs := by
            intro h
            rw [h, List.length_cons] at hlength
            omega
          simp [collapseFrom_true_cons hc, hne]

/-- A collapsed text does not begin with a blank inside a run of blanks. -/
lemma startsBlank_of_collapsed {text : List Char} (h : collapseFrom true text = text) :
    startsBlank text = false := by
  cases text with
  | nil => rfl
  | cons c cs =>
      rw [collapseFrom_cons_eq_self_iff] at h
      rw [startsBlank_cons, ← Bool.not_eq_true]
      intro hc
      exact absurd (h.1 hc).1 (by decide)

/-- The pieces of a collapsed text are collapsed. -/
lemma exists_pieces_collapsed (separators : List Char) (n : Nesting) {inRun : Bool}
    {text : List Char} (h : collapseFrom inRun text = text) :
    ∃ p ps, pieces separators n text = p :: ps ∧ collapseFrom inRun p = p ∧
      ∀ q ∈ ps, ∃ inRun, collapseFrom inRun q = q := by
  induction text generalizing n inRun with
  | nil => exact ⟨[], [], rfl, rfl, by simp⟩
  | cons c cs ih =>
      obtain ⟨hc, hcs⟩ := collapseFrom_cons_eq_self_iff.mp h
      rw [pieces]
      split_ifs
      · obtain ⟨p, ps, hps, hp, hrest⟩ := ih n hcs
        exact ⟨[], p :: ps, by rw [hps], rfl, List.forall_mem_cons.mpr ⟨⟨_, hp⟩, hrest⟩⟩
      · obtain ⟨p, ps, hps, hp, hrest⟩ := ih (n.next c) hcs
        exact ⟨c :: p, ps, by rw [hps, consFirst],
          collapseFrom_cons_eq_self_iff.mpr ⟨hc, hp⟩, hrest⟩

/-- The components of a collapsed text are tidy. -/
lemma isTidy_of_mem_components {separators text part : List Char} (h : collapse text = text)
    (hpart : part ∈ components separators text) : IsTidy part := by
  obtain ⟨p, ps, hps, hp, hrest⟩ := exists_pieces_collapsed separators {} h
  simp only [components, List.mem_filter, List.mem_map, hps] at hpart
  obtain ⟨⟨piece, hpiece, rfl⟩, _⟩ := hpart
  have hcollapsed : ∃ inRun, collapseFrom inRun piece = piece := by
    rcases List.mem_cons.mp hpiece with rfl | hpiece
    · exact ⟨false, hp⟩
    · exact hrest piece hpiece
  obtain ⟨inRun, hcollapsed⟩ := hcollapsed
  rw [← hcollapsed, trim_collapseFrom]
  exact isTidy_tidy piece

/-- Cut at its spaces, a collapsed text without a blank at its end has solid pieces, but for the
first one, which is as solid in front as the text. -/
lemma exists_pieces_solid (n : Nesting) {inRun : Bool} {text : List Char}
    (h : collapseFrom inRun text = text) (hend : endsBlank text = false) :
    ∃ p ps, pieces [' '] n text = p :: ps ∧ endsBlank p = false ∧
      (text ≠ [] → startsBlank text = false → Solid p) ∧ ∀ q ∈ ps, Solid q := by
  induction text generalizing n inRun with
  | nil => exact ⟨[], [], rfl, rfl, fun h => absurd rfl h, by simp⟩
  | cons c cs ih =>
      obtain ⟨hc, hcs⟩ := collapseFrom_cons_eq_self_iff.mp h
      have hstart : isBlank c = true → startsBlank cs = false := by
        intro hblank
        rw [hblank] at hcs
        exact startsBlank_of_collapsed hcs
      have hlone : endsBlank [c] = isBlank c := endsBlank_concat [] c
      have hne : isBlank c = true → cs ≠ [] := by
        rintro hblank rfl
        rw [hlone, hblank] at hend
        cases hend
      have hend' : endsBlank cs = false := endsBlank_of_append (a := [c]) hend
      rw [pieces]
      split_ifs with hsep
      · have hblank : isBlank c = true := by
          by_contra hne
          rw [Nesting.separates_of_not_isBlank (by simpa using hne)] at hsep
          cases hsep
        obtain ⟨p, ps, hps, _, hp, hsolid⟩ := ih n hcs hend'
        exact ⟨[], p :: ps, by rw [hps], rfl, fun _ h => absurd (hblank.symm.trans h) (by decide),
          List.forall_mem_cons.mpr ⟨hp (hne hblank) (hstart hblank), hsolid⟩⟩
      · obtain ⟨p, ps, hps, hpend, hp, hsolid⟩ := ih (n.next c) hcs hend'
        have hlast : endsBlank (c :: p) = false := by
          cases p with
          | cons d ds => exact (endsBlank_append (List.cons_ne_nil d ds) [c]).trans hpend
          | nil =>
              -- a blank would be followed by a character that begins the piece
              rw [hlone, ← Bool.not_eq_true]
              intro hblank
              exact (hp (hne hblank) (hstart hblank)).ne_nil rfl
        exact ⟨c :: p, ps, by rw [hps, consFirst], hlast,
          fun _ hfirst => ⟨List.cons_ne_nil c p, trim_eq_self hfirst hlast⟩, hsolid⟩

/-- **The components of a tidy text join to it.** -/
theorem joinWith_components {text : List Char} (h : IsTidy text) :
    joinWith ' ' (components [' '] text) = text := by
  by_cases hne : text = []
  · rw [hne]
    rfl
  · obtain ⟨p, ps, hps, _, hp, hsolid⟩ := exists_pieces_solid {} h.collapsed h.last
    have hall : ∀ q ∈ pieces [' '] {} text, Solid q := by
      rw [hps]
      exact List.forall_mem_cons.mpr ⟨hp hne h.first, hsolid⟩
    rw [components_eq_pieces hall, joinWith_pieces]

end Css

/-! ## Respacing -/

namespace Flip

/-- A list of shadows cut into its components and joined again. -/
def respace (text : List Char) : List Char :=
  joinWith ',' ((components [','] text).map fun shadow =>
    joinWith ' ' (components [' '] shadow))

/-- The shadow shows no direction: fewer than two of its components are lengths, or the first length
is zero. -/
def IsUndirected (parts : List (List Char)) : Prop :=
  parts.countP isOffset < 2 ∨ ∃ zero ∈ parts.find? isOffset, isZero zero = true

/-- All shadows of a list show no direction. -/
def AllUndirected (text : List Char) : Prop :=
  ∀ shadow ∈ components [','] text, IsUndirected (components [' '] shadow)

instance (parts : List (List Char)) : Decidable (IsUndirected parts) :=
  inferInstanceAs (Decidable (_ ∨ _))

instance (text : List Char) : Decidable (AllUndirected text) :=
  inferInstanceAs (Decidable (∀ _ ∈ _, _))

/-- Negating changes every length but zero. -/
lemma negate_eq_self_iff {component : List Char} :
    negate component = component ↔ isZero component = true := by
  unfold negate
  split_ifs with hzero
  · exact iff_of_true rfl hzero
  · refine iff_of_false ?_ hzero
    split
    case h_1 rest => exact fun h => List.cons_ne_self '-' rest h.symm
    case h_2 hsign =>
        intro h
        exact hsign _ h.symm

lemma negateFirst_eq_self_iff {parts : List (List Char)} :
    negateFirst parts = parts ↔ ∀ part ∈ parts.find? isOffset, isZero part = true := by
  induction parts with
  | nil => simp [negateFirst]
  | cons part parts ih =>
      rw [negateFirst, List.find?_cons]
      cases hpart : isOffset part with
      | true => simp [negate_eq_self_iff]
      | false => simpa using ih

/-- **Exactly a shadow that shows no direction is left alone.** -/
theorem flipShadow_eq_self_iff {parts : List (List Char)} :
    flipShadow parts = parts ↔ IsUndirected parts := by
  unfold flipShadow IsUndirected
  split_ifs with hcount
  · have hsome : (parts.find? isOffset).isSome = true := by
      rw [List.find?_isSome]
      exact List.countP_pos_iff.mp (by omega)
    obtain ⟨part, hpart⟩ := Option.isSome_iff_exists.mp hsome
    rw [negateFirst_eq_self_iff, hpart]
    simp [Nat.not_lt.mpr hcount]
  · simp [Nat.lt_of_not_le hcount]

/-- The flip respaces shadows that show no direction. -/
lemma flipShadows_eq_respace {text : List Char} (h : AllUndirected text) :
    flipShadows text = respace text := by
  unfold flipShadows respace
  refine congrArg (joinWith ',') (List.map_congr_left fun shadow hshadow => ?_)
  rw [flipShadow_eq_self_iff.mpr (h shadow hshadow)]

/-! ## Canonical texts -/

/-- The text is empty, or its commas stand between texts that have no blanks around them. -/
def EvenlySpaced (text : List Char) : Prop :=
  text = [] ∨ ∀ shadow ∈ pieces [','] {} text, Solid shadow

instance (text : List Char) : Decidable (EvenlySpaced text) :=
  inferInstanceAs (Decidable (_ ∨ _))

/-- In a collapsed text respacing is a matter of the commas. -/
lemma respace_of_collapsed {text : List Char} (h : collapse text = text) :
    respace text = joinWith ',' (components [','] text) := by
  have hmap : (components [','] text).map (fun shadow => joinWith ' ' (components [' '] shadow)) =
      components [','] text :=
    (List.map_congr_left fun _ hshadow =>
      joinWith_components (isTidy_of_mem_components h hshadow)).trans (List.map_id _)
  rw [respace, hmap]

/-- **A collapsed text is respaced to itself exactly when it is evenly spaced.** -/
theorem respace_eq_self_iff {text : List Char} (h : collapse text = text) :
    respace text = text ↔ EvenlySpaced text := by
  rw [respace_of_collapsed h]
  refine ⟨fun hjoin => or_iff_not_imp_left.mpr fun hne => ?_, ?_⟩
  · have hcomponents : components [','] text ≠ [] := by
      intro hnil
      rw [hnil] at hjoin
      exact hne hjoin.symm
    have hpieces := pieces_joinWith (by decide : Nesting.separates {} [','] ',' = true)
      (joinable_components text) hcomponents
    rw [hjoin] at hpieces
    rw [hpieces]
    exact fun shadow => solid_of_mem_components
  · rintro (rfl | hsolid)
    · rfl
    · rw [components_eq_pieces hsolid, joinWith_pieces]

/-- A numeral holds no blank. -/
lemma isTidy_of_isNumeral {text : List Char} (h : IsNumeral text) : IsTidy text := by
  have hblanks : ∀ c ∈ blanks, isNumeralChar c = false :=
    List.forall_iff_forall_mem.mp (by decide)
  refine isTidy_of_forall fun c hc => ?_
  rw [← Bool.not_eq_true]
  intro hblank
  have hnot := hblanks c (mem_blanks.mpr hblank)
  rw [h c hc] at hnot
  cases hnot

/-- A canonical list of shadows is its body with its mark, and the body is tidy. -/
lemma canonical_of_takesShadows {strict : Bool} {property : String} {v : Value} {text : List Char}
    (hproperty : takesShadows property = true)
    (h : Property.valueText strict property v = .ok text) :
    IsTidy (splitImportance text).1 ∧
      attachImportance (splitImportance text).1 (splitImportance text).2 = text := by
  have hnumeral : IsNumeral text → IsTidy (splitImportance text).1 ∧
      attachImportance (splitImportance text).1 (splitImportance text).2 = text := by
    intro hnumeral
    have hmark : '!' ∉ text := fun hmem => absurd (hnumeral _ hmem) (by decide)
    rw [splitImportance_of_not_mem hmark]
    exact ⟨isTidy_of_isNumeral hnumeral, rfl⟩
  cases v with
  | int n => exact hnumeral (Property.isNumeral_numberText h)
  | float x => exact hnumeral (Property.isNumeral_numberText h)
  | text s =>
      have hplain : Property.takesPropertyNames property = false ∧
          Property.domain? property ≠ some .time := by
        simp only [takesShadows, Bool.or_eq_true, beq_iff_eq] at hproperty
        rcases hproperty with rfl | rfl <;> decide +kernel
      obtain ⟨hne, body, hbody, _, _, rfl⟩ := Property.stringText_eq_ok.mp h
      obtain ⟨htidy, _, hsplit⟩ :=
        Property.adaptBody_adaptBody hplain.1 hplain.2 (isTidy_tidy s.toList) hne hbody
      have hfound : splitImportance (attachImportance body (splitImportance (tidy s.toList)).2) =
          (body, (splitImportance (tidy s.toList)).2) := by
        cases himportant : (splitImportance (tidy s.toList)).2 with
        | true => exact splitImportance_attachImportance htidy.last
        | false => exact (hsplit himportant).2
      rw [hfound]
      exact ⟨htidy, rfl⟩
  | _ => exact absurd h (reject_ne_ok _ _)

/-- The flip of a value is the flip of its body, with the mark put back. -/
lemma flipValue_eq (property : String) (value : List Char) :
    flipValue property value = (do
      let flipped ← flipBody property (splitImportance value).1
      pure (if flipped = (splitImportance value).1 then value
        else attachImportance flipped (splitImportance value).2)) := rfl

lemma attachImportance_inj {a b : List Char} {important : Bool} :
    attachImportance a important = attachImportance b important ↔ a = b := by
  cases important <;> simp [attachImportance]

/-- **A canonical list of shadows that show no direction is respaced.** -/
theorem flipValue_of_allUndirected {strict : Bool} {property : String} {v : Value}
    {text : List Char} (hproperty : takesShadows property = true)
    (hv : Property.valueText strict property v = .ok text)
    (h : AllUndirected (splitImportance text).1) :
    flipValue property text =
        .ok (attachImportance (respace (splitImportance text).1) (splitImportance text).2) ∧
      (attachImportance (respace (splitImportance text).1) (splitImportance text).2 = text ↔
        EvenlySpaced (splitImportance text).1) := by
  obtain ⟨htidy, htext⟩ := canonical_of_takesShadows hproperty hv
  refine ⟨?_, ?_⟩
  · have hflip : flipBody property (splitImportance text).1 =
        .ok (respace (splitImportance text).1) := by
      rw [flipBody, if_pos hproperty, flipShadows_eq_respace h]
    rw [flipValue_eq]
    refine bind_eq_ok.mpr ⟨_, hflip, congrArg Except.ok ?_⟩
    split_ifs with hsame
    · rw [hsame, htext]
    · rfl
  · rw [← respace_eq_self_iff htidy.collapsed]
    conv_lhs => rhs; rw [← htext]
    exact attachImportance_inj

end Flip

/-! ## Sets of declarations -/

variable {settings : Settings}

/-- A declaration of shadows that show no direction, as a longhand resolves to it. -/
structure Declaration.ShowsNoDirection (settings : Settings) (d : Declaration) : Prop where
  shadows : Flip.takesShadows d.property = true
  resolved : ∃ longhand, ResolvesTo settings .ltr longhand d
  undirected : Flip.AllUndirected (splitImportance d.value.toList).1

lemma IsRendering.takesShadows {name : String} (h : IsRendering name) :
    Flip.takesShadows name = false := by
  have hall : ∀ e ∈ Property.logicalProperties, ∀ name ∈ e.2.renderings,
      Flip.takesShadows name = false := by decide +kernel
  obtain ⟨property, l, hl, hname⟩ := h
  exact hall _ (mem_of_lookup_eq_some hl) name hname

/-- A property of shadows is no rendering, and takes no keyword relative to the direction. -/
lemma turned_of_takesShadows {d : Declaration} (hd : d.Resolved settings .ltr)
    (h : Flip.takesShadows d.property = true) :
    (turned settings d).property = d.property ∧ (turned settings d).value = d.value ∧
      d.sourceValue = d.value := by
  have hkeyword : Property.takesLogicalKeyword d.property = false := by
    simp only [Flip.takesShadows, Bool.or_eq_true, beq_iff_eq] at h
    rcases h with hname | hname <;> rw [hname] <;> decide
  have hproperty : (turned settings d).property = d.property := by
    rcases physicalName_cases settings d.origin with hname | hname
    · have hrendering := hname .ltr
      rw [← hd.property] at hrendering
      rw [hrendering.takesShadows] at h
      cases h
    · exact (hname .rtl).trans ((hname .ltr).symm.trans hd.property.symm)
  have hself : ∀ direction, physicalValue settings direction d.property d.sourceValue.toList =
      d.sourceValue.toList := by
    intro direction
    exact physicalValue_eq_self fun htakes => absurd (hkeyword.symm.trans htakes) (by decide)
  have hsource : d.sourceValue.toList = d.value.toList := by rw [hd.value, hself]
  refine ⟨hproperty, String.toList_inj.mp ?_, String.toList_inj.mp hsource⟩
  calc (turned settings d).value.toList
      = physicalValue settings .rtl (turned settings d).property d.sourceValue.toList :=
        String.toList_ofList
    _ = d.value.toList := by rw [hproperty, hself, hsource]

/-- The counterpart of a declaration without a direction reads like it if the settings ask for no
flip or the shadows are evenly spaced. -/
lemma Declaration.ShowsNoDirection.exists_counterpart {d : Declaration}
    (h : d.ShowsNoDirection settings) :
    ∃ e, counterpartDeclaration settings d = .ok e ∧
      (e.differs d = false ↔ settings.flipsValues = false ∨
        Flip.EvenlySpaced (splitImportance d.value.toList).1) := by
  obtain ⟨longhand, hlonghand⟩ := h.resolved
  obtain ⟨hproperty, hvalue, hself⟩ :=
    turned_of_takesShadows (resolved_of_resolvesTo hlonghand) h.shadows
  obtain ⟨text, htext, _, hname, hsource, _⟩ := exists_text_of_resolvesTo hlonghand
  rw [← hname, ← String.toList_ofList (l := text), ← hsource, hself] at htext
  obtain ⟨hflip, hsame⟩ := Flip.flipValue_of_allUndirected h.shadows htext h.undirected
  rw [← hsame]
  generalize attachImportance _ _ = flipped at hflip
  cases hflips : settings.flipsValues with
  | false =>
      refine ⟨turned settings d, ?_, ?_⟩
      · rw [counterpartDeclaration_eq, Settings.flip, hflips]
        simp
      · exact iff_of_true (differs_eq_false_iff.mpr ⟨hproperty, hvalue⟩) (.inl rfl)
  | true =>
      have hcounterpart : settings.flip (turned settings d).property
          (turned settings d).value.toList = .ok flipped := by
        rw [Settings.flip, if_pos hflips, hproperty, hvalue, hflip]
      refine ⟨_, counterpartDeclaration_eq_ok.mpr ⟨flipped, hcounterpart, rfl⟩, ?_⟩
      have hflipped : String.ofList flipped = d.value ↔ flipped = d.value.toList := by
        rw [← String.toList_inj, String.toList_ofList]
      simp [differs_eq_false_iff, hproperty, hflipped]

/-- No declaration is found to be sensitive if each reads like its counterpart. -/
lemma exists_firstSensitive?_eq_none_iff {Alike : Declaration → Prop} {ds : List Declaration}
    (h : ∀ d ∈ ds, ∃ e, counterpartDeclaration settings d = .ok e ∧
      (e.differs d = false ↔ Alike d)) :
    ∃ sensitive, firstSensitive? settings ds = .ok sensitive ∧
      (sensitive = none ↔ ∀ d ∈ ds, Alike d) := by
  induction ds with
  | nil => exact ⟨none, rfl, by simp⟩
  | cons d ds ih =>
      obtain ⟨⟨e, he, halike⟩, hds⟩ := List.forall_mem_cons.mp h
      obtain ⟨sensitive, hsensitive, hnone⟩ := ih hds
      cases hdiffers : e.differs d with
      | true =>
          refine ⟨some d, bind_eq_ok.mpr ⟨e, he, by rw [if_pos hdiffers]; rfl⟩, ?_⟩
          rw [hdiffers] at halike
          simp [← halike]
      | false =>
          refine ⟨sensitive, bind_eq_ok.mpr ⟨e, he, by rw [hdiffers]; exact hsensitive⟩, ?_⟩
          rw [hnone, List.forall_mem_cons]
          exact (and_iff_right (halike.mp hdiffers)).symm

/-- A set needs a counterpart unless each declaration reads like its own. -/
lemma exists_needsCounterpart {s : DeclarationSet} {Alike : Declaration → Prop}
    (h : ∀ d ∈ s.declarations, ∃ e, counterpartDeclaration settings d = .ok e ∧
      (e.differs d = false ↔ Alike d)) :
    ∃ needs, needsCounterpart settings s = .ok needs ∧
      (needs = false ↔ ∀ d ∈ s.declarations, Alike d) := by
  obtain ⟨sensitive, hsensitive, hnone⟩ := exists_firstSensitive?_eq_none_iff h
  refine ⟨sensitive.isSome, bind_eq_ok.mpr ⟨sensitive, hsensitive, rfl⟩, ?_⟩
  rw [← hnone, Option.isSome_eq_false_iff, Option.isNone_iff_eq_none]

/-- **Shadows that show no direction are respaced, and nothing else.**  The flip of a canonical list
of such shadows leaves no space beside a comma; it leaves the list alone exactly when there was
none.  A set of such declarations needs a counterpart exactly when the settings ask for flips and
some list is not evenly spaced. -/
theorem flip_of_undirected_shadows (settings : Settings) :
    (∀ (strict : Bool) (property : String) (v : Value) (text : List Char),
      Flip.takesShadows property = true → Property.valueText strict property v = .ok text →
        Flip.AllUndirected (splitImportance text).1 →
          ∃ flipped, Flip.flipValue property text = .ok flipped ∧
            flipped = attachImportance (Flip.respace (splitImportance text).1)
              (splitImportance text).2 ∧
            (flipped = text ↔ Flip.EvenlySpaced (splitImportance text).1)) ∧
    ∀ s : DeclarationSet, (∀ d ∈ s.declarations, d.ShowsNoDirection settings) →
      ∃ needs, needsCounterpart settings s = .ok needs ∧
        (needs = false ↔ settings.flipsValues = false ∨
          ∀ d ∈ s.declarations, Flip.EvenlySpaced (splitImportance d.value.toList).1) := by
  refine ⟨fun strict property v text hproperty hv h => ?_, fun s hs => ?_⟩
  · obtain ⟨hflip, hsame⟩ := Flip.flipValue_of_allUndirected hproperty hv h
    exact ⟨_, hflip, rfl, hsame⟩
  · obtain ⟨needs, hneeds, hfalse⟩ :=
      exists_needsCounterpart fun d hd => (hs d hd).exists_counterpart
    refine ⟨needs, hneeds, hfalse.trans ?_⟩
    cases settings.flipsValues <;> simp

/-- What an entry resolves to shows no direction if its properties and values show none. -/
lemma showsNoDirection_of_resolve {name : String} {value : Value} {s : DeclarationSet}
    (hs : resolve settings .ltr name value = .ok s)
    (h : ∀ item ∈ s.items, Flip.takesShadows item.1 = true ∧
      Flip.AllUndirected (splitImportance item.2.toList).1) :
    ∀ d ∈ s.declarations, d.ShowsNoDirection settings := by
  intro d hd
  obtain ⟨hshadows, hundirected⟩ := h _ (List.mem_map_of_mem hd)
  obtain ⟨longhand, _, hlonghand⟩ := exists_of_mem_forall₂ (forall₂_of_resolve hs).2 hd
  exact ⟨hshadows, ⟨longhand, hlonghand⟩, hundirected⟩

/-- One list of shadows without a direction, written with a space behind its comma and without.  The
first list is flipped to the second, so it needs a counterpart; the second needs none. -/
theorem flip_of_undirected_shadows_with_space :
    ∃ s t : DeclarationSet,
      resolve {} .ltr "boxShadow" (.text "0 1px red,  0.0 2px blue ! important") = .ok s ∧
        resolve {} .ltr "boxShadow" (.text "0 1px red,0.0 2px blue !important") = .ok t ∧
        (∃ flipped, Flip.flipValue "box-shadow" "0 1px red, 0.0 2px blue !important".toList =
            .ok flipped ∧ flipped = "0 1px red,0.0 2px blue !important".toList) ∧
        needsCounterpart {} s = .ok true ∧ needsCounterpart {} t = .ok false := by
  have hrun : (do
      let s ← resolve {} .ltr "boxShadow" (.text "0 1px red,  0.0 2px blue ! important")
      let t ← resolve {} .ltr "boxShadow" (.text "0 1px red,0.0 2px blue !important")
      pure (s.items, t.items) :
        Outcome (List (String × String) × List (String × String))) =
      .ok ([("box-shadow", "0 1px red, 0.0 2px blue !important")],
        [("box-shadow", "0 1px red,0.0 2px blue !important")]) :=
    eq_ok_of_toOption (by decide +kernel)
  simp only [bind_eq_ok, pure_eq_ok, Prod.mk.injEq] at hrun
  obtain ⟨s, hs, t, ht, hsitems, htitems⟩ := hrun
  have hv : Property.valueText false "box-shadow" (.text "0 1px red,  0.0 2px blue ! important") =
      .ok "0 1px red, 0.0 2px blue !important".toList := eq_ok_of_toOption (by decide +kernel)
  have heven : ∀ u : DeclarationSet,
      (∀ d ∈ u.declarations, Flip.EvenlySpaced (splitImportance d.value.toList).1) ↔
        ∀ item ∈ u.items, Flip.EvenlySpaced (splitImportance item.2.toList).1 :=
    fun u => by simp only [DeclarationSet.items, List.forall_mem_map]
  have hsnone : ∀ d ∈ s.declarations, d.ShowsNoDirection {} :=
    showsNoDirection_of_resolve hs (by rw [hsitems]; decide +kernel)
  have htnone : ∀ d ∈ t.declarations, d.ShowsNoDirection {} :=
    showsNoDirection_of_resolve ht (by rw [htitems]; decide +kernel)
  obtain ⟨flipped, hflip, hflipped, _⟩ :=
    (flip_of_undirected_shadows {}).1 false "box-shadow" _ _ (by decide) hv (by decide +kernel)
  obtain ⟨needs, hneeds, hsiff⟩ := (flip_of_undirected_shadows {}).2 s hsnone
  obtain ⟨needs', hneeds', htiff⟩ := (flip_of_undirected_shadows {}).2 t htnone
  rw [heven, hsitems] at hsiff
  rw [heven, htitems] at htiff
  have hspaced : needs = true := Bool.of_not_eq_false (mt hsiff.mp (by decide +kernel))
  have htight : needs' = false := htiff.mpr (by decide +kernel)
  exact ⟨s, t, hs, ht, ⟨flipped, hflip, hflipped.trans (by decide +kernel)⟩, hspaced ▸ hneeds,
    htight ▸ hneeds'⟩

end AtomicStyle
