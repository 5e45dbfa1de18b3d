import AtomicStyle.Proofs.Direction.Likeness
import AtomicStyle.Proofs.Property.Line

/-!
# Declarations of one line

A declaration is emitted on one line, and so is its counterpart, if the name it was written under is
a line.

**Rendering.**  The renderings of the tables are lines, and any other name or value is emitted as it
is.

**Flips.**  A flip puts side words, cursors and signs in the place of parts of the value and leaves
the rest, so it makes a line of a line (`isLine_flipValue`).

**Styles.**  What a style resolves to remembers an origin and a source value that are lines
(`onLine_of_mem`), and what is made of these for either direction is emitted on one line
(`emitsLine_of_mem`, `emitsLine_of_mem_counterpart`).
-/

namespace AtomicStyle

open Css Property Text

/-! ## Rendering -/

section

variable {settings : Settings} {direction : Direction}

lemma isLine_physicalName {longhand : String} (h : IsLine longhand.toList) :
    IsLine (physicalName settings direction longhand).toList := by
  unfold physicalName
  split
  case h_1 l hl => exact isLine_of_logical? hl _ (render_mem_renderings settings direction l)
  case h_2 => exact h

lemma isLine_physicalValue {property : String} {value : List Char} (h : IsLine value) :
    IsLine (physicalValue settings direction property value) := by
  have hkeywords : ∀ text ∈ keywordTexts, IsLine text := by decide +kernel
  rcases physicalValue_cases settings property value with ⟨_, htexts⟩ | hkeep
  · exact hkeywords _ (htexts direction)
  · rw [hkeep direction]
    exact h

end

/-! ## Flips -/

namespace Flip

lemma isLine_flipWordsFrom {text : List Char} (h : IsLine text) {before : Option Char} {skip : Nat}
    {flipped : List Char} (hflip : flipWordsFrom before skip text = .ok flipped) :
    IsLine flipped := by
  have hsides : IsLine left ∧ IsLine right := by decide
  induction text generalizing before skip flipped with
  | nil => exact Except.ok.inj hflip ▸ isLine_nil
  | cons c cs ih =>
      obtain ⟨hc, hcs⟩ := isLine_cons.mp h
      rw [flipWordsFrom] at hflip
      split_ifs at hflip
      · exact ih hcs hflip
      · split at hflip
        case h_1 word _ =>
            obtain ⟨side, hside, hflip⟩ := bind_eq_ok.mp hflip
            obtain ⟨rest, hrest, hflip⟩ := bind_eq_ok.mp hflip
            obtain rfl := pure_eq_ok.mp hflip
            refine isLine_append.mpr ⟨?_, ih hcs hrest⟩
            rcases opposite_eq_ok hside with rfl | rfl
            · exact hsides.1
            · exact hsides.2
        case h_2 =>
            obtain ⟨rest, hrest, hflip⟩ := bind_eq_ok.mp hflip
            obtain rfl := pure_eq_ok.mp hflip
            exact isLine_cons.mpr ⟨hc, ih hcs hrest⟩

lemma isLine_flipGradientsFrom {text : List Char} (h : IsLine text) {skip : Nat}
    {flipped : List Char} (hflip : flipGradientsFrom skip text = .ok flipped) :
    IsLine flipped := by
  induction text generalizing skip flipped with
  | nil => exact Except.ok.inj hflip ▸ isLine_nil
  | cons c cs ih =>
      obtain ⟨hc, hcs⟩ := isLine_cons.mp h
      rw [flipGradientsFrom] at hflip
      split_ifs at hflip
      · exact ih hcs hflip
      · split at hflip
        case h_1 head direction hgradient =>
            obtain ⟨turned, hturned, hflip⟩ := bind_eq_ok.mp hflip
            obtain ⟨rest, hrest, hflip⟩ := bind_eq_ok.mp hflip
            obtain rfl := pure_eq_ok.mp hflip
            obtain ⟨⟨behind, htext⟩, _⟩ := exists_of_gradient? hgradient
            rw [htext, isLine_append, isLine_append] at h
            exact isLine_append.mpr
              ⟨isLine_append.mpr ⟨h.1.1, isLine_flipWordsFrom h.1.2 hturned⟩, ih hcs hrest⟩
        case h_2 =>
            obtain ⟨rest, hrest, hflip⟩ := bind_eq_ok.mp hflip
            obtain rfl := pure_eq_ok.mp hflip
            exact isLine_cons.mpr ⟨hc, ih hcs hrest⟩

lemma isLine_negate {component : List Char} (h : IsLine component) : IsLine (negate component) := by
  unfold negate
  split_ifs
  · exact h
  · split
    · exact (isLine_cons.mp h).2
    · exact isLine_cons.mpr ⟨by decide, h.mono (List.dropWhile_suffix _).subset⟩

lemma isLine_flipShadow {parts : List (List Char)} (h : ∀ part ∈ parts, IsLine part) :
    ∀ part ∈ flipShadow parts, IsLine part := by
  have hfirst : ∀ part ∈ negateFirst parts, IsLine part := by
    induction parts with
    | nil => exact h
    | cons first rest ih =>
        obtain ⟨hpart, hrest⟩ := List.forall_mem_cons.mp h
        rw [negateFirst]
        split_ifs
        · exact List.forall_mem_cons.mpr ⟨isLine_negate hpart, hrest⟩
        · exact List.forall_mem_cons.mpr ⟨hpart, ih hrest⟩
  unfold flipShadow
  split_ifs
  · exact hfirst
  · exact h

lemma isLine_flipShadows {text : List Char} (h : IsLine text) : IsLine (flipShadows text) := by
  refine isLine_joinWith (by decide) (List.forall_mem_map.mpr fun shadow hshadow => ?_)
  refine isLine_joinWith (by decide) (isLine_flipShadow fun part hpart => ?_)
  exact (h.mono (subset_of_mem_components hshadow)).mono (subset_of_mem_components hpart)

/-- A cursor is as it was, or a constant. -/
lemma isLine_flipCursor {text : List Char} (h : IsLine text) : IsLine (flipCursor text) := by
  have hconstant : ∀ pair ∈ cursors, IsLine pair.2.toList := by decide
  unfold flipCursor
  split
  case h_1 flipped hlookup => exact hconstant _ (mem_of_lookup_eq_some hlookup)
  case h_2 => exact h

lemma isLine_flipBody {property : String} {body flipped : List Char} (h : IsLine body)
    (hflip : flipBody property body = .ok flipped) : IsLine flipped := by
  unfold flipBody at hflip
  split_ifs at hflip
  · exact Except.ok.inj hflip ▸ isLine_flipShadows h
  · exact Except.ok.inj hflip ▸ isLine_flipCursor h
  · exact isLine_flipWordsFrom h hflip
  · exact isLine_flipGradientsFrom h hflip

/-- **The flip of a line is a line**, for every property. -/
theorem isLine_flipValue {property : String} {value flipped : List Char} (h : IsLine value)
    (hflip : flipValue property value = .ok flipped) : IsLine flipped := by
  rcases flipValue_cases hflip with rfl | ⟨body, hbody, rfl⟩
  · exact h
  · exact isLine_attachImportance (isLine_flipBody (isLine_splitImportance h) hbody) _

end Flip

/-! ## Declarations -/

variable {settings : Settings} {direction : Direction}

/-- The declaration is emitted on one line. -/
structure Declaration.EmitsLine (d : Declaration) : Prop where
  property : IsLine d.property.toList
  value : IsLine d.value.toList

/-- What the declaration remembers of its origin is of one line. -/
structure Declaration.OnLine (d : Declaration) : Prop where
  origin : IsLine d.origin.toList
  source : IsLine d.sourceValue.toList

lemma Declaration.OnLine.emitsLine {d : Declaration} (h : d.OnLine)
    (hd : d.Resolved settings direction) : d.EmitsLine where
  property := by
    rw [hd.property]
    exact isLine_physicalName h.origin
  value := by
    rw [hd.value]
    exact isLine_physicalValue h.source

/-- **The counterpart of a declaration is emitted on one line too.** -/
theorem Declaration.OnLine.emitsLine_counterpart {d e : Declaration} (h : d.OnLine)
    (he : counterpartDeclaration settings d = .ok e) : e.EmitsLine := by
  obtain ⟨value, hvalue, rfl⟩ := counterpartDeclaration_eq_ok.mp he
  have hturned : IsLine (turned settings d).value.toList := by
    rw [turned, String.toList_ofList]
    exact isLine_physicalValue h.source
  refine ⟨isLine_physicalName h.origin, ?_⟩
  rw [String.toList_ofList]
  rcases Settings.flip_cases hvalue with hflip | rfl
  · exact Flip.isLine_flipValue hturned hflip
  · exact hturned

/-- The names that a style gives properties are lines. -/
def NamesOnLine (style : Value) : Prop :=
  ∀ entries name value, entriesOf style = .ok entries → (Key.text name, value) ∈ entries →
    IsLine name.toList

/-- What a style resolves to is of one line if its names are, whatever its values. -/
lemma onLine_of_mem {style : Value} {s : DeclarationSet} (hnames : NamesOnLine style)
    (h : resolveStyle settings direction style = .ok s) {d : Declaration}
    (hd : d ∈ s.declarations) : d.OnLine := by
  obtain ⟨ds, hds, rfl⟩ := resolveStyle_eq_ok.mp h
  obtain ⟨entries, hentries, name, value, hmem, _, l, hl, hld⟩ :=
    exists_longhand_of_mem hds (mem_written_of_mem hd)
  obtain ⟨text, htext, horigin, _, hsource, _⟩ := exists_text_of_resolvesTo hld
  have hdashed : IsLine (dashed name).toList := by
    rw [dashed, String.toList_ofList]
    exact isLine_dashedChars (hnames entries name value hentries hmem)
  constructor
  · rw [horigin]
    exact isLine_of_mem_expand hdashed hl
  · rw [hsource, String.toList_ofList]
    exact isLine_valueText htext

/-- **A style whose names are lines is emitted on one line.** -/
theorem emitsLine_of_mem {style : Value} {s : DeclarationSet} (hnames : NamesOnLine style)
    (hs : resolveStyle settings direction style = .ok s) :
    ∀ d ∈ s.declarations, d.EmitsLine :=
  fun _ hd => (onLine_of_mem hnames hs hd).emitsLine (resolved_of_mem hs hd)

/-- **So is the counterpart of what it resolves to.** -/
theorem emitsLine_of_mem_counterpart {style : Value} {s t : DeclarationSet}
    (hnames : NamesOnLine style) (hs : resolveStyle settings direction style = .ok s)
    (ht : counterpart settings s = .ok t) : ∀ e ∈ t.declarations, e.EmitsLine := by
  intro e he
  obtain ⟨d, hd, hcounterpart⟩ := exists_of_mem_forall₂ (forall₂_counterpart ht) he
  exact (onLine_of_mem hnames hs hd).emitsLine_counterpart hcounterpart

end AtomicStyle
