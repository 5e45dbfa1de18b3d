import AtomicStyle.Direction.Counterpart
import AtomicStyle.Proofs.Direction.SafeFlip
import AtomicStyle.Proofs.Resolution

/-!
# Turning a declaration to the other direction

The counterpart of a declaration is made in two steps.  The declaration is *turned*: its origin
and its source value are rendered for right-to-left text.  Then its value is flipped, if the
settings ask for it.  Only the second step can fail.

**Rendering.**  Logical resolution renders alike for both directions (`turned_of_logical`), so there
only flipping makes a difference.  In either resolution a rendering is safe when the source is
(`terminator?_physicalValue`).

**Turning is resolving anew.**  `turned_of_resolvesTo` says that a declaration resolved for
left-to-right text and turned is the declaration resolved for right-to-left text: the two physical
names of a logical property take the same values, so the source value is the same.

**Counterparts.**  `counterpartDeclaration_eq` and `counterpart_eq_ok` take the counterpart of a
declaration and of a set apart.
-/

namespace AtomicStyle

open Css Property

variable {settings : Settings} {direction : Direction}

/-! ## Rendering -/

lemma render_of_logical (h : settings.resolution = .logical) (l : Logical) :
    settings.render .rtl l = settings.render .ltr l := by
  simp [Settings.render, Settings.isPhysical, h]

lemma physicalName_of_logical (h : settings.resolution = .logical) (longhand : String) :
    physicalName settings .rtl longhand = physicalName settings .ltr longhand := by
  simp only [physicalName, render_of_logical h]

lemma physicalValue_of_logical (h : settings.resolution = .logical) (property : String)
    (value : List Char) :
    physicalValue settings .rtl property value = physicalValue settings .ltr property value := by
  simp only [physicalValue, render_of_logical h]

theorem terminator?_physicalValue {property : String} {value : List Char}
    (h : terminator? value = none) :
    terminator? (physicalValue settings direction property value) = none := by
  unfold physicalValue
  split_ifs
  · dsimp only
    split
    case h_1 l hl =>
        have hinert := inert_of_logicalKeyword? hl _ (render_mem_renderings settings direction l)
        exact terminator?_attachImportance.mpr hinert.terminator?_eq_none
    case h_2 => exact h
  · exact h

/-! ## Turning is resolving anew -/

/-- A declaration rendered for right-to-left text. -/
def turned (settings : Settings) (d : Declaration) : Declaration :=
  { d with
    property := physicalName settings .rtl d.origin
    value := String.ofList (physicalValue settings .rtl (physicalName settings .rtl d.origin)
      d.sourceValue.toList) }

/-- Under logical resolution a declaration is turned to itself. -/
theorem turned_of_logical (h : settings.resolution = .logical) {d : Declaration}
    (hd : d.Resolved settings .ltr) :
    (turned settings d).property = d.property ∧ (turned settings d).value = d.value := by
  have hproperty : (turned settings d).property = d.property := by
    rw [hd.property]
    exact physicalName_of_logical h d.origin
  refine ⟨hproperty, ?_⟩
  have hvalue : (turned settings d).value.toList = d.value.toList := by
    calc (turned settings d).value.toList
        = physicalValue settings .rtl (turned settings d).property d.sourceValue.toList :=
          String.toList_ofList
      _ = physicalValue settings .ltr d.property d.sourceValue.toList := by
          rw [hproperty, physicalValue_of_logical h]
      _ = d.value.toList := hd.value.symm
  exact String.toList_inj.mp hvalue

/-- The names of a longhand in the two directions take the same values. -/
lemma sameValues_physicalName (settings : Settings) (longhand : String) :
    SameValues (physicalName settings .ltr longhand) (physicalName settings .rtl longhand) := by
  unfold physicalName
  split
  case h_1 l hl =>
      unfold Settings.render
      split_ifs
      · exact sameValues_of_logical? hl
      · exact .refl _
  case h_2 => exact .refl _

/-- **Turning is resolving anew.**  What a longhand resolves to for left-to-right text, turned,
has the property and the value that it resolves to for right-to-left text. -/
theorem turned_of_resolvesTo {l : String × Value} {d e : Declaration}
    (hd : ResolvesTo settings .ltr l d) (he : ResolvesTo settings .rtl l e) :
    (turned settings d).property = e.property ∧ (turned settings d).value = e.value := by
  obtain ⟨text, htext, horigin, _, hsource, _⟩ := exists_text_of_resolvesTo hd
  obtain ⟨text', htext', _, hproperty', _, hvalue'⟩ := exists_text_of_resolvesTo he
  have hsame : text' = text := by
    rw [valueText_of_sameValues (sameValues_physicalName settings l.1) htext] at htext'
    exact (Except.ok.inj htext').symm
  subst hsame
  have hproperty : (turned settings d).property = e.property := by
    rw [hproperty', ← horigin]
    rfl
  refine ⟨hproperty, ?_⟩
  rw [hvalue', ← hproperty, turned, hsource, String.toList_ofList]

/-! ## Counterparts -/

/-- A value flipped as far as the settings ask for it. -/
def Settings.flip (settings : Settings) (property : String) (value : List Char) :
    Outcome (List Char) :=
  if settings.flipsValues then Flip.flipValue property value else .ok value

/-- A value is flipped, or the settings ask for no flip and it stays. -/
lemma Settings.flip_cases {property : String} {value flipped : List Char}
    (h : settings.flip property value = .ok flipped) :
    Flip.flipValue property value = .ok flipped ∨ flipped = value := by
  unfold Settings.flip at h
  split_ifs at h
  · exact Or.inl h
  · exact Or.inr (Except.ok.inj h).symm

lemma terminator?_flip {property : String} {value flipped : List Char}
    (h : terminator? value = none) (hflip : settings.flip property value = .ok flipped) :
    terminator? flipped = none := by
  rcases Settings.flip_cases hflip with hflip | rfl
  · exact Flip.terminator?_flipValue h hflip
  · exact h

/-- The counterpart of a declaration is the turned one with its value flipped. -/
lemma counterpartDeclaration_eq (d : Declaration) :
    counterpartDeclaration settings d = (do
      let value ← settings.flip (turned settings d).property (turned settings d).value.toList
      pure { turned settings d with value := String.ofList value }) := by
  unfold counterpartDeclaration Settings.flip turned
  rw [String.toList_ofList]
  by_cases hflips : settings.flipsValues = true
  · simp only [hflips, if_true]
  · simp only [hflips, Bool.false_eq_true, if_false]
    rfl

lemma counterpartDeclaration_eq_ok {d e : Declaration} :
    counterpartDeclaration settings d = .ok e ↔
      ∃ value, settings.flip (turned settings d).property (turned settings d).value.toList =
          .ok value ∧
        { turned settings d with value := String.ofList value } = e := by
  simp only [counterpartDeclaration_eq, bind_eq_ok, pure_eq_ok]

/-- The counterpart of a set matches it declaration by declaration. -/
lemma counterpart_eq_ok {s t : DeclarationSet} :
    counterpart settings s = .ok t ↔
      ∃ ds, List.Forall₂ (fun d e => counterpartDeclaration settings d = .ok e) s.declarations ds ∧
        .ofList ds false = t := by
  simp only [counterpart, bind_eq_ok, pure_eq_ok, mapM_eq_ok]

lemma forall₂_counterpart {s t : DeclarationSet} (h : counterpart settings s = .ok t) :
    List.Forall₂ (fun d e => counterpartDeclaration settings d = .ok e) s.declarations
      t.declarations := by
  obtain ⟨ds, hds, rfl⟩ := counterpart_eq_ok.mp h
  rw [DeclarationSet.declarations_ofList_false]
  exact hds

end AtomicStyle
