import AtomicStyle.Proofs.Resolution

/-!
# The names under which declarations are emitted

A name of ASCII letters, digits and dashes stays one in its canonical spelling
(`isSimpleName_dashedChars`), and what it is expanded to and rendered as are such names or come from
the tables.  So a style with simple names is emitted under plain names (`isPlainName_of_mem`).
-/

namespace AtomicStyle

open Css Property

/-! ## Simple names -/

/-- Whether the character is an ASCII letter, an ASCII digit or a dash. -/
def isNameChar (c : Char) : Bool :=
  c.isAlphanum || c == '-'

/-- Whether the name consists of ASCII letters, ASCII digits and dashes. -/
def isSimpleName (name : List Char) : Bool :=
  name.all isNameChar

lemma isNameChar_iff {c : Char} :
    isNameChar c = true ↔ c.isAlpha = true ∨ c.isDigit = true ∨ c = '-' := by
  simp [isNameChar, Char.isAlphanum, or_assoc]

lemma isSimpleName_iff {name : List Char} :
    isSimpleName name = true ↔ ∀ c ∈ name, isNameChar c = true :=
  List.all_eq_true

lemma isPlain_of_isNameChar {c : Char} (h : isNameChar c = true) :
    (isInert c && c != ':') = true := by
  have hmarkers : markers.any isNameChar = false := by decide
  have hcolon : c ≠ ':' := by
    rintro rfl
    exact absurd h (by decide)
  rw [isInert_of_any_markers hmarkers h, Bool.true_and]
  exact bne_iff_ne.mpr hcolon

lemma isPlainName_of_isSimpleName {name : List Char} (h : isSimpleName name = true) :
    isPlainName name = true := by
  refine List.all_eq_true.mpr fun c hc => ?_
  exact isPlain_of_isNameChar (isSimpleName_iff.mp h c hc)

/-! ## The canonical spelling -/

lemma lt_of_isNameChar {c : Char} (h : isNameChar c = true) : c.toNat < 0x80 := by
  have hbound : ∀ b : Char, c.val ≤ b.val → b.toNat < 0x80 → c.toNat < 0x80 := by
    intro b hc hb
    exact Nat.lt_of_le_of_lt (UInt32.le_iff_toNat_le.mp hc) hb
  rcases isNameChar_iff.mp h with halpha | hdigit | rfl
  · rcases Bool.or_eq_true_iff.mp halpha with hupper | hlower
    · exact hbound 'Z' (of_decide_eq_true hupper).2 (by decide)
    · exact hbound 'z' (of_decide_eq_true (Bool.and_eq_true_iff.mp hlower).2) (by decide)
  · exact hbound '9' (of_decide_eq_true (Bool.and_eq_true_iff.mp hdigit).2) (by decide)
  · decide

lemma isNameChar_toLower {c : Char} (h : isNameChar c = true) : isNameChar c.toLower = true := by
  have hall : ∀ c : Char, c.toNat < 0x80 → isNameChar c = true → isNameChar c.toLower = true :=
    forall_ascii (by decide)
  exact hall c (lt_of_isNameChar h) h

/-- Only dashes are inserted. -/
lemma mem_of_mem_insertDashes {before : Option Char} {name : List Char} {c : Char}
    (h : c ∈ insertDashes before name) : c ∈ name ∨ c = '-' := by
  induction name generalizing before with
  | nil => exact absurd h (by simp [insertDashes])
  | cons d ds ih =>
      rw [insertDashes] at h
      split_ifs at h
      · rcases List.mem_cons.mp h with rfl | h
        · exact Or.inr rfl
        · rcases List.mem_cons.mp h with rfl | h
          · exact Or.inl List.mem_cons_self
          · exact (ih h).imp_left (List.mem_cons_of_mem d)
      · rcases List.mem_cons.mp h with rfl | h
        · exact Or.inl List.mem_cons_self
        · exact (ih h).imp_left (List.mem_cons_of_mem d)

lemma mem_of_mem_markVendor {name : List Char} {c : Char} (h : c ∈ markVendor name) :
    c ∈ name ∨ c = '-' := by
  unfold markVendor at h
  split at h
  · rcases List.mem_cons.mp h with rfl | h
    · exact Or.inr rfl
    · exact Or.inl h
  · exact Or.inl h

/-- **The canonical spelling of a simple name is a simple name.** -/
theorem isSimpleName_dashedChars {name : List Char} (h : isSimpleName name = true) :
    isSimpleName (dashedChars name) = true := by
  unfold dashedChars
  split
  · exact h
  · rw [isSimpleName_iff] at h ⊢
    have hdashes : ∀ c ∈ insertDashes none name, isNameChar c = true := by
      intro c hc
      rcases mem_of_mem_insertDashes hc with hc | rfl
      · exact h c hc
      · rfl
    intro c hc
    rcases mem_of_mem_markVendor hc with hc | rfl
    · rw [Text.lower_of_ascii _ fun d hd => lt_of_isNameChar (hdashes d hd)] at hc
      obtain ⟨d, hd, rfl⟩ := List.mem_map.mp hc
      exact isNameChar_toLower (hdashes d hd)
    · rfl

/-! ## Expansion and rendering -/

/-- The text is a component of the value, with the importance mark of the whole. -/
def IsDealt (value text : String) : Prop :=
  ∃ part ∈ components [' '] (splitImportance (Text.trim value.toList)).1,
    text = String.ofList (attachImportance part (splitImportance (Text.trim value.toList)).2)

/-- What is dealt out goes to the longhands of the shorthand, component by component. -/
lemma mem_of_dealOut? {s : Shorthand} {value : String} {dealt : List (String × Value)}
    (h : dealOut? s value = some dealt) {l : String × Value} (hl : l ∈ dealt) :
    l.1 ∈ s.longhands ∧ ∃ text, l.2 = .text text ∧ IsDealt value text := by
  unfold dealOut? at h
  dsimp only at h
  split at h
  case h_1 => cases h
  case h_2 layout hlayout =>
      split_ifs at h
      obtain rfl := Option.some.inj h
      obtain ⟨⟨longhand, i⟩, hmem, rfl⟩ := List.mem_map.mp hl
      obtain ⟨hlonghand, hi⟩ := List.of_mem_zip hmem
      refine ⟨hlonghand, _, rfl, _, ?_, rfl⟩
      have hlt := Shorthand.lt_of_mem_layout? hlayout i hi
      rw [List.getD_eq_getElem?_getD, List.getElem?_eq_getElem hlt, Option.getD_some]
      exact List.getElem_mem hlt

/-- Where a longhand comes from: the property stands for itself, because it is no shorthand or its
value cannot be dealt out, or it is a shorthand that is expanded. -/
lemma mem_expand_cases {property : String} {value : Value} {l : String × Value}
    (h : l ∈ expand property value) :
    l = (property, value) ∧ (shorthand? property = none ∨
        ∃ s text, shorthand? property = some s ∧ value = .text text ∧ dealOut? s text = none) ∨
      ∃ s, shorthand? property = some s ∧ l.1 ∈ s.longhands ∧
        (l.2 = value ∨
          ∃ given text, value = .text given ∧ l.2 = .text text ∧ IsDealt given text) := by
  unfold expand at h
  split at h
  case h_1 hs =>
      rw [List.mem_singleton] at h
      exact Or.inl ⟨h, Or.inl hs⟩
  case h_2 s given hs =>
      cases hdeal : dealOut? s given with
      | none =>
          rw [hdeal, Option.getD_none, List.mem_singleton] at h
          exact Or.inl ⟨h, Or.inr ⟨s, given, hs, rfl, hdeal⟩⟩
      | some dealt =>
          rw [hdeal, Option.getD_some] at h
          obtain ⟨hlonghand, text, htext, hdealt⟩ := mem_of_dealOut? hdeal h
          exact Or.inr ⟨s, hs, hlonghand, Or.inr ⟨given, text, rfl, htext, hdealt⟩⟩
  case h_3 _ s hs _ =>
      obtain ⟨longhand, hlonghand, rfl⟩ := List.mem_map.mp h
      exact Or.inr ⟨s, hs, hlonghand, Or.inl rfl⟩

/-- A property with a plain name has longhands with plain names. -/
lemma isPlainName_of_mem_expand {property : String} {value : Value} {l : String × Value}
    (h : isPlainName property.toList = true) (hl : l ∈ expand property value) :
    isPlainName l.1.toList = true := by
  rcases mem_expand_cases hl with ⟨rfl, _⟩ | ⟨s, hs, hmem, _⟩
  · exact h
  · exact isPlainName_of_shorthand? hs _ hmem

/-- A longhand with a plain name is emitted under a plain name. -/
lemma isPlainName_physicalName {settings : Settings} {direction : Direction} {longhand : String}
    (h : isPlainName longhand.toList = true) :
    isPlainName (physicalName settings direction longhand).toList = true := by
  unfold physicalName
  split
  case h_1 l hl => exact isPlainName_of_logical? hl _ (render_mem_renderings settings direction l)
  case h_2 => exact h

/-- **A style with simple names is emitted under plain names.** -/
theorem isPlainName_of_mem {settings : Settings} {direction : Direction}
    {entries : List (Key × Value)} {s : DeclarationSet}
    (hnames : ∀ name value, (Key.text name, value) ∈ entries → isSimpleName name.toList = true)
    (h : resolveStyle settings direction (.map entries) = .ok s) {d : Declaration}
    (hd : d ∈ s.declarations) : isPlainName d.property.toList = true := by
  obtain ⟨ds, hds, rfl⟩ := resolveStyle_eq_ok.mp h
  obtain ⟨entries', hentries, name, value, hmem, _, l, hl, hld⟩ :=
    exists_longhand_of_mem hds (mem_written_of_mem hd)
  obtain rfl := Except.ok.inj hentries
  obtain ⟨_, _, _, hproperty, _, _⟩ := exists_text_of_resolvesTo hld
  have hdashed : isPlainName (dashed name).toList = true := by
    rw [dashed, String.toList_ofList]
    exact isPlainName_of_isSimpleName (isSimpleName_dashedChars (hnames name value hmem))
  rw [hproperty]
  exact isPlainName_physicalName (isPlainName_of_mem_expand hdashed hl)

end AtomicStyle
