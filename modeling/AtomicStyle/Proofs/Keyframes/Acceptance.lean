import AtomicStyle.Proofs.Rule.Variant

/-!
# Which keyframes are accepted

The frames of a definition are compiled one behind the other, each with the selectors in front of
it.  This file says which definitions come through, without speaking of the order.

**Selectors.**  A key spells a canonical selector if its parts between commas are keywords and
percentages; the blanks around them are gone (`frameSelector_eq_ok`).

**Frames.**  `IsFrame` says what the entry of a frame must be like by itself.  Behind other frames
it is also asked for a new selector (`exists_compileFrame_iff`).

**Definitions.**  A definition is accepted exactly when its entries are frames under distinct
selectors (`exists_compileFrames_iff`).
-/

namespace AtomicStyle

variable {settings : Settings}

/-! ## Selectors -/

/-- The parts of a selector between its commas, trimmed. -/
def selectorParts (selector : String) : List (List Char) :=
  (Text.splitOn ',' selector.toList).map Text.trim

/-- The key is a valid selector, and the other text is its canonical spelling. -/
def Spells (key : Key) (selector : String) : Prop :=
  ∃ s, key = .text s ∧ (∀ part ∈ selectorParts s, isFramePart part = true) ∧
    selector = String.ofList (Text.joinWith ',' (selectorParts s))

lemma Spells.unique {key : Key} {a b : String} (ha : Spells key a) (hb : Spells key b) : a = b := by
  obtain ⟨s, rfl, _, rfl⟩ := ha
  obtain ⟨t, hkey, _, rfl⟩ := hb
  rw [Key.text.inj hkey]

lemma textSelector_eq (s : String) (frame : Value) :
    textSelector s frame = if (selectorParts s).all isFramePart then
        .ok (String.ofList (Text.joinWith ',' (selectorParts s)))
      else reject { reason := .badSelector, selector := s, fragment := frame } := rfl

/-- **A selector is accepted in its canonical spelling if it is valid.** -/
theorem frameSelector_eq_ok {key : Key} {frame : Value} {selector : String} :
    frameSelector key.toValue frame = .ok selector ↔ Spells key selector := by
  cases key with
  | number n =>
      refine iff_of_false (reject_ne_ok _ _) ?_
      rintro ⟨s, hkey, _⟩
      cases hkey
  | text s =>
      have hselector : frameSelector (Key.text s).toValue frame = textSelector s frame := rfl
      rw [hselector, textSelector_eq]
      split_ifs with hparts
      · rw [Except.ok.injEq, eq_comm]
        refine ⟨fun h => ⟨s, rfl, List.all_eq_true.mp hparts, h⟩, ?_⟩
        rintro ⟨t, hkey, _, h⟩
        rwa [Key.text.inj hkey]
      · refine iff_of_false (reject_ne_ok _ _) ?_
        rintro ⟨t, hkey, hall, _⟩
        rw [← Key.text.inj hkey] at hall
        exact hparts (List.all_eq_true.mpr hall)

lemma newSelector_eq_ok {seen : List String} {key : Key} {frame : Value} {selector : String} :
    newSelector seen key frame = .ok selector ↔ Spells key selector ∧ selector ∉ seen := by
  simp only [newSelector, bind_eq_ok, reject_bind, ite_reject_eq_ok, pure_eq_ok,
    frameSelector_eq_ok, List.contains_iff_mem]
  constructor
  · rintro ⟨name, hname, hnew, rfl⟩
    exact ⟨hname, hnew⟩
  · rintro ⟨hname, hnew⟩
    exact ⟨selector, hname, hnew, rfl⟩

/-! ## Frames -/

/-- The value is neither missing nor a mapping. -/
def IsScalar (value : Value) : Prop :=
  value ≠ .null ∧ ∀ entries, value ≠ .map entries

lemma checkScalars_eq_ok {entries : List (Key × Value)} :
    checkScalars entries = .ok () ↔ ∀ e ∈ entries, IsScalar e.2 := by
  induction entries with
  | nil => simp [checkScalars]
  | cons entry rest ih =>
      obtain ⟨key, value⟩ := entry
      rw [List.forall_mem_cons, ← ih]
      cases value with
      | null => exact iff_of_false (reject_ne_ok _ _) fun h => h.1.1 rfl
      | map entries => exact iff_of_false (reject_ne_ok _ _) fun h => h.1.2 entries rfl
      | _ => exact (and_iff_right (by simp [IsScalar])).symm

/-- The entry is a frame under the selector: it is under a valid key, and it is a style of scalars
that resolves and whose declarations have counterparts. -/
structure IsFrame (settings : Settings) (entry : Key × Value) (selector : String) : Prop where
  spells : Spells entry.1 selector
  style : ∃ entries, entry.2 = .map entries ∧ ∀ e ∈ entries, IsScalar e.2
  resolves : ∃ s, resolveStyle settings .ltr entry.2 = .ok s ∧
    ∃ t, counterpart settings s = .ok t

/-- **What a frame behind others is asked for.** -/
theorem exists_compileFrame_iff {seen : List String} {entry : Key × Value} {selector : String} :
    (∃ f, compileFrameIn (m := Outcome) settings seen entry.1 entry.2 = .ok f ∧
        f.selector = selector) ↔
      IsFrame settings entry selector ∧ selector ∉ seen := by
  constructor
  · rintro ⟨f, hf, rfl⟩
    have hof := Frame.of_compileFrame hf
    obtain ⟨selector, hselector, h⟩ := bind_eq_ok.mp hf
    obtain ⟨resolved, hresolved, h⟩ := bind_eq_ok.mp h
    obtain ⟨_, _, h⟩ := bind_eq_ok.mp h
    obtain rfl := pure_eq_ok.mp h
    obtain ⟨hspells, hnew⟩ := newSelector_eq_ok.mp hselector
    obtain ⟨t, ht, _⟩ := hof.rtl
    refine ⟨⟨hspells, ?_, _, hof.resolved, t, ht⟩, hnew⟩
    cases hframe : entry.2 with
    | map entries =>
        rw [hframe] at hresolved
        obtain ⟨_, hscalars, _⟩ := bind_eq_ok.mp (atSelector_eq_ok.mp hresolved)
        exact ⟨entries, rfl, checkScalars_eq_ok.mp hscalars⟩
    | _ =>
        rw [hframe] at hresolved
        exact absurd hresolved (reject_ne_ok _ _)
  · obtain ⟨key, frame⟩ := entry
    rintro ⟨⟨hspells, ⟨entries, rfl, hscalars⟩, s, hs, t, ht⟩, hnew⟩
    obtain ⟨other, hother⟩ := exists_withCounterpart ht
    refine ⟨⟨selector, s, other⟩, ?_, rfl⟩
    refine bind_eq_ok.mpr ⟨selector, newSelector_eq_ok.mpr ⟨hspells, hnew⟩, ?_⟩
    refine bind_eq_ok.mpr ⟨s, atSelector_eq_ok.mpr ?_, bind_eq_ok.mpr ⟨_, hother, rfl⟩⟩
    exact bind_eq_ok.mpr ⟨(), checkScalars_eq_ok.mpr hscalars, hs⟩

/-! ## Definitions -/

/-- **A definition is accepted exactly when its entries are frames under distinct selectors**, which
are none of those seen. -/
theorem exists_compileFrames_iff {seen : List String} {entries : List (Key × Value)}
    {selectors : List String} :
    (∃ frames, compileFramesIn (m := Outcome) settings seen entries = .ok frames ∧
        frames.map Frame.selector = selectors) ↔
      List.Forall₂ (IsFrame settings) entries selectors ∧ selectors.Nodup ∧
        ∀ s ∈ selectors, s ∉ seen := by
  induction entries generalizing seen selectors with
  | nil =>
      rw [List.forall₂_nil_left_iff]
      constructor
      · rintro ⟨frames, hframes, rfl⟩
        obtain rfl := Except.ok.inj hframes
        simp
      · rintro ⟨rfl, _⟩
        exact ⟨[], rfl, rfl⟩
  | cons entry rest ih =>
      simp only [compileFramesIn, bind_eq_ok, pure_eq_ok]
      constructor
      · rintro ⟨_, ⟨f, hf, fs, hfs, rfl⟩, rfl⟩
        obtain ⟨hframe, hnew⟩ := exists_compileFrame_iff.mp ⟨f, hf, rfl⟩
        obtain ⟨hrest, hnodup, hseen⟩ := ih.mp ⟨fs, hfs, rfl⟩
        refine ⟨.cons hframe hrest, List.nodup_cons.mpr ⟨fun hmem => ?_, hnodup⟩, ?_⟩
        · exact hseen _ hmem List.mem_cons_self
        · exact List.forall_mem_cons.mpr ⟨hnew, fun s hs hmem =>
            hseen s hs (List.mem_cons_of_mem _ hmem)⟩
      · rintro ⟨hforall, hnodup, hseen⟩
        cases hforall with
        | @cons _ selector _ selectors hframe hrest =>
            obtain ⟨hfresh, hrestnodup⟩ := List.nodup_cons.mp hnodup
            obtain ⟨hnew, hrestseen⟩ := List.forall_mem_cons.mp hseen
            obtain ⟨f, hf, rfl⟩ := exists_compileFrame_iff.mpr ⟨hframe, hnew⟩
            have hunseen : ∀ s ∈ selectors, s ∉ f.selector :: seen := by
              intro s hs hmem
              rcases List.mem_cons.mp hmem with rfl | hmem
              · exact hfresh hs
              · exact hrestseen s hs hmem
            obtain ⟨fs, hfs, rfl⟩ := ih.mpr ⟨hrest, hrestnodup, hunseen⟩
            exact ⟨f :: fs, ⟨f, hf, fs, hfs, rfl⟩, rfl⟩

end AtomicStyle
