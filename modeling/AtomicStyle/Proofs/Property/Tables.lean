import AtomicStyle.Property.Domain
import AtomicStyle.Property.Logical
import AtomicStyle.Property.Shorthand
import AtomicStyle.Proofs.Css.Standing

/-!
# What the tables hold

Facts about all entries of a table, decided by going through it.

**Names.**  The renderings of a logical property are plain names (`isPlainName_of_logical?`), and
so are the longhands of a shorthand: no character of them can be taken for the colon behind a name
or for anything that the scan for a terminator asks about.

**Physical names.**  The two physical names of a logical property take the same values
(`sameValues_of_logical?`), so the text of a value does not depend on which of them it is asked for.
The logical CSS name need not be known where they are, but a name that is not known is treated like
one whose values pass through, so all three are treated alike (`treatedAlike_of_logical?`).

**Keywords.**  The renderings of a keyword relative to the direction are inert
(`inert_of_logicalKeyword?`).
-/

namespace AtomicStyle

lemma mem_of_lookup_eq_some {α β : Type} [BEq α] [LawfulBEq α] {table : List (α × β)} {a : α}
    {b : β} (h : table.lookup a = some b) : (a, b) ∈ table := by
  obtain ⟨before, behind, htable, _⟩ := List.lookup_eq_some_iff.mp h
  rw [htable]
  exact List.mem_append_right before List.mem_cons_self

namespace Property

open Css

/-- Whether a name can be told from the colon behind it, and holds nothing that the scan for a
terminator gives a meaning to. -/
def isPlainName (name : List Char) : Bool :=
  name.all fun c => isInert c && c != ':'

lemma inert_of_isPlainName {name : List Char} (h : isPlainName name = true) : Inert name := by
  intro c hc
  have hplain := List.all_eq_true.mp h c hc
  exact (Bool.and_eq_true_iff.mp hplain).1

lemma colon_not_mem_of_isPlainName {name : List Char} (h : isPlainName name = true) :
    ':' ∉ name := by
  intro hc
  have hplain := List.all_eq_true.mp h ':' hc
  exact absurd hplain (by decide)

/-- The properties take the same values: neither a number nor a text is treated differently. -/
structure SameValues (p q : String) : Prop where
  domain : domain? p = domain? q
  custom : isCustom p = isCustom q
  names : takesPropertyNames p = takesPropertyNames q
  content : p = "content" ↔ q = "content"
  gridLines : takesGridLines p = takesGridLines q

lemma SameValues.refl (p : String) : SameValues p p := ⟨rfl, rfl, rfl, .rfl, rfl⟩

lemma SameValues.symm {p q : String} (h : SameValues p q) : SameValues q p :=
  ⟨h.domain.symm, h.custom.symm, h.names.symm, h.content.symm, h.gridLines.symm⟩

instance (p q : String) : Decidable (SameValues p q) :=
  decidable_of_iff
    (domain? p = domain? q ∧ isCustom p = isCustom q ∧
      takesPropertyNames p = takesPropertyNames q ∧ (p = "content" ↔ q = "content") ∧
        takesGridLines p = takesGridLines q)
    ⟨fun ⟨h₁, h₂, h₃, h₄, h₅⟩ => ⟨h₁, h₂, h₃, h₄, h₅⟩,
      fun h => ⟨h.domain, h.custom, h.names, h.content, h.gridLines⟩⟩

/-- Values of the properties are treated alike: a name that is not known is treated like one whose
values pass through. -/
structure TreatedAlike (p q : String) : Prop where
  domain : (domain? p).getD .plain = (domain? q).getD .plain
  custom : isCustom p = isCustom q
  names : takesPropertyNames p = takesPropertyNames q
  content : p = "content" ↔ q = "content"
  gridLines : takesGridLines p = takesGridLines q

lemma TreatedAlike.refl (p : String) : TreatedAlike p p := ⟨rfl, rfl, rfl, .rfl, rfl⟩

lemma TreatedAlike.symm {p q : String} (h : TreatedAlike p q) : TreatedAlike q p :=
  ⟨h.domain.symm, h.custom.symm, h.names.symm, h.content.symm, h.gridLines.symm⟩

lemma TreatedAlike.trans {p q r : String} (h : TreatedAlike p q) (h' : TreatedAlike q r) :
    TreatedAlike p r :=
  ⟨h.domain.trans h'.domain, h.custom.trans h'.custom, h.names.trans h'.names,
    h.content.trans h'.content, h.gridLines.trans h'.gridLines⟩

lemma SameValues.treatedAlike {p q : String} (h : SameValues p q) : TreatedAlike p q :=
  ⟨congrArg (Option.getD · .plain) h.domain, h.custom, h.names, h.content, h.gridLines⟩

instance (p q : String) : Decidable (TreatedAlike p q) :=
  decidable_of_iff
    ((domain? p).getD .plain = (domain? q).getD .plain ∧ isCustom p = isCustom q ∧
      takesPropertyNames p = takesPropertyNames q ∧ (p = "content" ↔ q = "content") ∧
        takesGridLines p = takesGridLines q)
    ⟨fun ⟨h₁, h₂, h₃, h₄, h₅⟩ => ⟨h₁, h₂, h₃, h₄, h₅⟩,
      fun h => ⟨h.domain, h.custom, h.names, h.content, h.gridLines⟩⟩

/-- The three renderings of a logical name. -/
def Logical.renderings (l : Logical) : List String :=
  [l.agnostic, l.ltr, l.rtl]

/-- Stated for the characters of a literal, which need not be decoded then. -/
lemma isPlainName_ofList {name : List Char} (h : isPlainName name = true) :
    isPlainName (String.ofList name).toList = true := by
  rw [String.toList_ofList]
  exact h

/-- **The renderings of a logical property are plain names.** -/
theorem isPlainName_of_logical? {property : String} {l : Logical}
    (h : logical? property = some l) : ∀ name ∈ l.renderings, isPlainName name.toList = true := by
  have hall : ∀ e ∈ logicalProperties, ∀ name ∈ e.2.renderings,
      isPlainName name.toList = true := by
    simp only [logicalProperties, Logical.renderings, List.forall_mem_cons]
    repeat' apply And.intro
    all_goals first | exact isPlainName_ofList rfl | simp
  exact hall _ (mem_of_lookup_eq_some h)

theorem isPlainName_of_shorthand? {property : String} {s : Shorthand}
    (h : shorthand? property = some s) : ∀ name ∈ s.longhands, isPlainName name.toList = true := by
  have hall : ∀ e ∈ shorthands, ∀ name ∈ e.2.longhands, isPlainName name.toList = true := by
    simp only [shorthands, boxSides, pairOf, List.map, List.forall_mem_cons, String.reduceAppend]
    repeat' apply And.intro
    all_goals first | exact isPlainName_ofList rfl | simp
  exact hall _ (mem_of_lookup_eq_some h)

/-- The physical properties that are the mirror images of each other. -/
def mirrorImages : List (String × String) := [
  ("left", "right"), ("margin-left", "margin-right"), ("padding-left", "padding-right"),
  ("border-left-width", "border-right-width"), ("border-left-style", "border-right-style"),
  ("border-left-color", "border-right-color"),
  ("border-top-left-radius", "border-top-right-radius"),
  ("border-bottom-left-radius", "border-bottom-right-radius")]

/-- The two physical names of a logical property are one, or mirror images. -/
lemma mirrorImages_of_logical? {property : String} {l : Logical}
    (h : logical? property = some l) :
    l.ltr = l.rtl ∨ (l.ltr, l.rtl) ∈ mirrorImages ∨ (l.rtl, l.ltr) ∈ mirrorImages := by
  have hall : ∀ e ∈ logicalProperties, e.2.ltr = e.2.rtl ∨
      (e.2.ltr, e.2.rtl) ∈ mirrorImages ∨ (e.2.rtl, e.2.ltr) ∈ mirrorImages := by
    decide +kernel
  exact hall _ (mem_of_lookup_eq_some h)

/-- **The two physical names of a logical property take the same values.** -/
theorem sameValues_of_logical? {property : String} {l : Logical}
    (h : logical? property = some l) : SameValues l.ltr l.rtl := by
  have hall : ∀ pair ∈ mirrorImages, SameValues pair.1 pair.2 := by decide +kernel
  rcases mirrorImages_of_logical? h with heq | hmem | hmem
  · exact heq ▸ .refl _
  · exact hall _ hmem
  · exact (hall _ hmem).symm

/-- **All renderings of a logical property are treated alike.** -/
theorem treatedAlike_of_logical? {property : String} {l : Logical} (h : logical? property = some l) :
    ∀ p ∈ l.renderings, ∀ q ∈ l.renderings, TreatedAlike p q := by
  have hall : ∀ e ∈ logicalProperties, TreatedAlike e.2.ltr e.2.agnostic := by decide +kernel
  have hltr : ∀ p ∈ l.renderings, TreatedAlike l.ltr p := by
    simp only [Logical.renderings, List.forall_mem_cons]
    exact ⟨hall _ (mem_of_lookup_eq_some h), .refl _, (sameValues_of_logical? h).treatedAlike,
      by simp⟩
  exact fun p hp q hq => (hltr p hp).symm.trans (hltr q hq)

/-- No rendering of a logical property takes keywords relative to the direction. -/
theorem takesLogicalKeyword_of_logical? {property : String} {l : Logical}
    (h : logical? property = some l) :
    ∀ name ∈ l.renderings, takesLogicalKeyword name = false := by
  have hall : ∀ e ∈ logicalProperties, ∀ name ∈ e.2.renderings,
      takesLogicalKeyword name = false := by decide +kernel
  exact hall _ (mem_of_lookup_eq_some h)

theorem inert_of_logicalKeyword? {keyword : String} {l : Logical}
    (h : logicalKeyword? keyword = some l) : ∀ name ∈ l.renderings, Inert name.toList := by
  have hall : ∀ e ∈ logicalKeywords, ∀ name ∈ e.2.renderings, Inert name.toList := by
    decide +kernel
  exact hall _ (mem_of_lookup_eq_some h)

end Property

end AtomicStyle
