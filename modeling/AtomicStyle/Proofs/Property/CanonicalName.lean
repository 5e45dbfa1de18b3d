import AtomicStyle.Proofs.PlainName

/-!
# Canonical names

The name under which a declaration is emitted may be given again as the name of a property.  It is
then found as it is: it has its canonical spelling, and it is rendered as itself.

**Spelling.**  Dashes are inserted in front of capitals, and what comes out has none, so spelling a
name of ASCII characters once more changes nothing (`dashed_dashed`).

**Tables.**  What a logical name is rendered as and what a shorthand is expanded to are known
longhands, row by row (`isLonghand_of_logical?`, `isLonghand_of_shorthand?`).

**Emitted names.**  So a name is emitted that comes from the tables, or that stands for itself
(`isLonghand_or_eq_of_mem_expand`).
-/

namespace AtomicStyle

open Css Property

/-! ## Spelling -/

/-- Whether the character is an ASCII character and no capital. -/
def isSmall (c : Char) : Bool :=
  c.toNat < 0x80 && !c.isUpper

lemma isSmall_iff {c : Char} : isSmall c = true ↔ c.toNat < 0x80 ∧ c.isUpper = false := by
  simp [isSmall]

lemma isSmall_toLower {c : Char} (h : c.toNat < 0x80) : isSmall c.toLower = true := by
  have hall : ∀ c : Char, c.toNat < 0x80 → isSmall c.toLower = true := forall_ascii (by decide)
  exact hall c h

lemma isAscii_insertDashes {before : Option Char} {name : List Char} (h : IsAscii name) :
    IsAscii (insertDashes before name) := by
  intro c hc
  rcases mem_of_mem_insertDashes hc with hc | rfl
  · exact h c hc
  · decide

/-- Without capitals no dash is inserted. -/
lemma insertDashes_eq_self {before : Option Char} {name : List Char}
    (h : ∀ c ∈ name, c.isUpper = false) : insertDashes before name = name := by
  induction name generalizing before with
  | nil => rfl
  | cons c cs ih =>
      obtain ⟨hc, hcs⟩ := List.forall_mem_cons.mp h
      rw [insertDashes, hc, ih hcs]
      rfl

lemma markVendor_eq_self {name : List Char} (h : ∀ rest, name ≠ 'm' :: 's' :: '-' :: rest) :
    markVendor name = name := by
  rw [markVendor]
  exact h

lemma markVendor_markVendor (name : List Char) :
    markVendor (markVendor name) = markVendor name := by
  by_cases h : ∃ rest, name = 'm' :: 's' :: '-' :: rest
  · obtain ⟨rest, rfl⟩ := h
    rfl
  · have hname : markVendor name = name := markVendor_eq_self fun rest hrest => h ⟨rest, hrest⟩
    rw [hname, hname]

/-- What an ASCII name that is not custom gets: dashes, small letters and the vendor dash. -/
lemma dashedChars_of_isAscii {name : List Char} (hcustom : ∀ rest, name ≠ '-' :: '-' :: rest)
    (h : IsAscii name) :
    dashedChars name = markVendor ((insertDashes none name).map Char.toLower) := by
  rw [dashedChars, Text.lower_of_ascii _ (isAscii_insertDashes h)]
  exact hcustom

/-- A name of small characters lacks at most a vendor dash. -/
lemma dashedChars_of_isSmall {name : List Char} (hcustom : ∀ rest, name ≠ '-' :: '-' :: rest)
    (hsmall : ∀ c ∈ name, isSmall c = true) : dashedChars name = markVendor name := by
  have hlower : name.map Char.toLower = name :=
    (List.map_congr_left fun c hc =>
      toLower_of_not_isUpper (isSmall_iff.mp (hsmall c hc)).2).trans (List.map_id _)
  rw [dashedChars_of_isAscii hcustom fun c hc => (isSmall_iff.mp (hsmall c hc)).1,
    insertDashes_eq_self fun c hc => (isSmall_iff.mp (hsmall c hc)).2, hlower]

/-- A name of small characters that lacks no vendor dash has its canonical spelling. -/
lemma dashedChars_eq_self {name : List Char} (hsmall : ∀ c ∈ name, isSmall c = true)
    (hvendor : markVendor name = name) : dashedChars name = name := by
  by_cases hcustom : ∃ rest, name = '-' :: '-' :: rest
  · obtain ⟨rest, rfl⟩ := hcustom
    rfl
  · rw [dashedChars_of_isSmall (fun rest heq => hcustom ⟨rest, heq⟩) hsmall, hvendor]

lemma dashedChars_dashedChars {name : List Char} (h : IsAscii name) :
    dashedChars (dashedChars name) = dashedChars name := by
  by_cases hcustom : ∃ rest, name = '-' :: '-' :: rest
  · obtain ⟨rest, rfl⟩ := hcustom
    rfl
  · have hname : dashedChars name = markVendor (Text.lower (insertDashes none name)) := by
      rw [dashedChars]
      exact fun rest heq => hcustom ⟨rest, heq⟩
    rw [hname]
    refine dashedChars_eq_self (fun c hc => ?_) (markVendor_markVendor _)
    rcases mem_of_mem_markVendor hc with hc | rfl
    · rw [Text.lower_of_ascii _ (isAscii_insertDashes h)] at hc
      obtain ⟨d, hd, rfl⟩ := List.mem_map.mp hc
      exact isSmall_toLower (isAscii_insertDashes h d hd)
    · decide

/-- **The canonical spelling of an ASCII name is its own canonical spelling.** -/
theorem dashed_dashed {name : String} (h : IsAscii name.toList) :
    dashed (dashed name) = dashed name := by
  rw [dashed, dashed, String.toList_ofList, dashedChars_dashedChars h]

/-- A name that is spelled with small letters only was written like that: a capital would have left
a dash behind. -/
lemma map_toLower_insertDashes {before : Option Char} (hbefore : beginsWord before = true)
    {name : List Char}
    (hsmall : ∀ c ∈ (insertDashes before name).map Char.toLower, 'a' ≤ c ∧ c ≤ 'z') :
    (insertDashes before name).map Char.toLower = name := by
  induction name generalizing before with
  | nil => rfl
  | cons c cs ih =>
      cases hupper : c.isUpper with
      | true =>
          rw [insertDashes, hupper, hbefore] at hsmall
          exact absurd (hsmall '-' List.mem_cons_self) (by decide)
      | false =>
          have hcons : insertDashes before (c :: cs) = c :: insertDashes (some c) cs := by
            rw [insertDashes, hupper]
            rfl
          rw [hcons, List.map_cons, toLower_of_not_isUpper hupper] at hsmall ⊢
          obtain ⟨⟨hge, hle⟩, hrest⟩ := List.forall_mem_cons.mp hsmall
          have hword : beginsWord (some c) = true := by simp [beginsWord, hge, hle]
          rw [ih hword hrest]

/-- Only `content` is spelled `content`. -/
lemma eq_content_of_dashed {name : String} (h : IsAscii name.toList)
    (hdashed : dashed name = "content") : name = "content" := by
  have hchars : dashedChars name.toList = "content".toList := by
    rw [← hdashed, dashed, String.toList_ofList]
  have hcustom : ∀ rest, name.toList ≠ '-' :: '-' :: rest := by
    intro rest hrest
    rw [hrest, dashedChars_custom] at hchars
    exact absurd (List.cons.inj hchars).1 (by decide)
  rw [dashedChars, Text.lower_of_ascii _ (isAscii_insertDashes h)] at hchars
  · have hvendor : ∀ rest, (insertDashes none name.toList).map Char.toLower ≠
        'm' :: 's' :: '-' :: rest := by
      intro rest hrest
      rw [hrest] at hchars
      exact absurd (List.cons.inj hchars).1 (by decide)
    rw [markVendor_eq_self hvendor] at hchars
    have hsmall : ∀ c ∈ "content".toList, 'a' ≤ c ∧ c ≤ 'z' :=
      List.forall_iff_forall_mem.mp (by decide)
    rw [← hchars] at hsmall
    rw [map_toLower_insertDashes rfl hsmall] at hchars
    exact String.toList_inj.mp hchars
  · exact hcustom

/-! ## Tables -/

variable {settings : Settings}

/-- What the names in the tables have in common: they have their canonical spelling, are known, are
no shorthands and not `content`. -/
structure IsLonghand (name : String) : Prop where
  spelled : dashed name = name
  known : isKnown name = true
  single : shorthand? name = none
  notContent : name ≠ "content"

/-- Stated for the characters of a literal, which need not be decoded then. -/
lemma dashed_ofList {name : List Char} (hsmall : name.all isSmall = true)
    (hvendor : markVendor name = name) : dashed (String.ofList name) = String.ofList name := by
  rw [dashed, String.toList_ofList, dashedChars_eq_self (List.all_eq_true.mp hsmall) hvendor]

lemma isKnown_of_domain? {name : String} (h : (domain? name).isSome = true) :
    isKnown name = true := by
  rw [isKnown, h, Bool.or_true]

lemma isKnown_of_logical? {name : String} (h : (logical? name).isSome = true) :
    isKnown name = true := by
  rw [isKnown, h, Bool.or_true, Bool.true_or, Bool.true_or]

/-- **The renderings of a logical property are known longhands.** -/
theorem isLonghand_of_logical? {property : String} {l : Logical} (h : logical? property = some l) :
    ∀ name ∈ l.renderings, IsLonghand name := by
  have hspelled : ∀ e ∈ logicalProperties, ∀ name ∈ e.2.renderings, dashed name = name := by
    simp only [logicalProperties, Logical.renderings, List.forall_mem_cons]
    repeat' apply And.intro
    all_goals first | exact dashed_ofList rfl rfl | simp
  have hsingle : ∀ e ∈ logicalProperties, ∀ name ∈ e.2.renderings,
      shorthand? name = none ∧ name ≠ "content" := by decide +kernel
  have hknown : ∀ e ∈ logicalProperties,
      (logical? e.2.agnostic).isSome = true ∧ (domain? e.2.ltr).isSome = true := by decide +kernel
  have hmem := mem_of_lookup_eq_some h
  obtain ⟨hagnostic, hltr⟩ := hknown _ hmem
  have hrtl : (domain? l.rtl).isSome = true := (sameValues_of_logical? h).domain ▸ hltr
  intro name hname
  obtain ⟨hname', hcontent⟩ := hsingle _ hmem name hname
  refine ⟨hspelled _ hmem name hname, ?_, hname', hcontent⟩
  simp only [Logical.renderings, List.mem_cons, List.not_mem_nil, or_false] at hname
  rcases hname with rfl | rfl | rfl
  · exact isKnown_of_logical? hagnostic
  · exact isKnown_of_domain? hltr
  · exact isKnown_of_domain? hrtl

/-- **What a shorthand is expanded to are known longhands.** -/
theorem isLonghand_of_shorthand? {property : String} {s : Shorthand}
    (h : shorthand? property = some s) : ∀ name ∈ s.longhands, IsLonghand name := by
  have hspelled : ∀ e ∈ shorthands, ∀ name ∈ e.2.longhands, dashed name = name := by
    simp only [shorthands, boxSides, pairOf, List.map, List.forall_mem_cons, String.reduceAppend]
    repeat' apply And.intro
    all_goals first | exact dashed_ofList rfl rfl | simp
  have hall : ∀ e ∈ shorthands, ∀ name ∈ e.2.longhands,
      (domain? name).isSome = true ∧ shorthand? name = none ∧ name ≠ "content" := by decide +kernel
  have hmem := mem_of_lookup_eq_some h
  intro name hname
  obtain ⟨hdomain, hsingle, hcontent⟩ := hall _ hmem name hname
  exact ⟨hspelled _ hmem name hname, isKnown_of_domain? hdomain, hsingle, hcontent⟩

/-- The settings choose one rendering for all names. -/
lemma render_ltr_cases (settings : Settings) :
    (∀ l, settings.render .ltr l = l.ltr) ∨ ∀ l, settings.render .ltr l = l.agnostic := by
  cases h : settings.isPhysical with
  | true => exact Or.inl fun l => by rw [Settings.render, h]; rfl
  | false => exact Or.inr fun l => by rw [Settings.render, h]; rfl

/-- A rendering is not rendered anew, or rendered as itself. -/
lemma physicalName_render {property : String} {l : Logical} (h : logical? property = some l) :
    physicalName settings .ltr (settings.render .ltr l) = settings.render .ltr l := by
  have hall : ∀ e ∈ logicalProperties, logical? e.2.ltr = none ∧
      ∀ l' ∈ logical? e.2.agnostic, l'.agnostic = e.2.agnostic := by decide +kernel
  obtain ⟨hltr, hagnostic⟩ := hall _ (mem_of_lookup_eq_some h)
  rcases render_ltr_cases settings with hrender | hrender
  · rw [hrender, physicalName_eq_self hltr]
  · rw [hrender]
    cases hl' : logical? l.agnostic with
    | none => exact physicalName_eq_self hl'
    | some l' => rw [physicalName_eq_render hl', hrender, hagnostic l' hl']

lemma physicalName_physicalName (longhand : String) :
    physicalName settings .ltr (physicalName settings .ltr longhand) =
      physicalName settings .ltr longhand := by
  cases h : logical? longhand with
  | some l => rw [physicalName_eq_render h, physicalName_render h]
  | none => rw [physicalName_eq_self h, physicalName_eq_self h]

/-! ## Emitted names -/

/-- **A declaration is emitted under a longhand from the tables, or under the name of its entry.**
In the second case the entry was not expanded. -/
theorem isLonghand_or_eq_of_mem_expand (settings : Settings) {property : String} {value : Value}
    {l : String × Value} (hl : l ∈ expand property value) :
    IsLonghand (physicalName settings .ltr l.1) ∨
      l = (property, value) ∧ physicalName settings .ltr property = property ∧
        (shorthand? property = none ∨ ∃ s text, shorthand? property = some s ∧
          value = .text text ∧ dealOut? s text = none) := by
  cases h : logical? l.1 with
  | some lo =>
      rw [physicalName_eq_render h]
      exact Or.inl (isLonghand_of_logical? h _ (render_mem_renderings settings .ltr lo))
  | none =>
      rcases mem_expand_cases hl with ⟨rfl, hsingle⟩ | ⟨s, hs, hmem, _⟩
      · exact Or.inr ⟨rfl, physicalName_eq_self h, hsingle⟩
      · rw [physicalName_eq_self h]
        exact Or.inl (isLonghand_of_shorthand? hs _ hmem)

end AtomicStyle
