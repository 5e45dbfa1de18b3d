import AtomicStyle.Proofs.Css.Mark

/-!
# Changes that no importance mark reaches

A flip changes the body of a value, and the mark is put back behind it.  Is the mark of the result
the mark of the value?  The body must not end in a blank, or in a mark of its own.

**Foreign words.**  Blanks, an exclamation mark and the letters of one word make up a mark
(`isMarkChar_of_isMark`).  A word is *foreign* when it holds some other character and no mark can
begin inside it (`IsForeign`).

**Changes.**  `BesideMark` exchanges foreign words for foreign words.  The texts then end in the
same marks and end in a blank alike, so the mark that is put behind the one is found behind the
other (`BesideMark.splitImportance`).
-/

namespace AtomicStyle.Css

open Text

/-! ## Foreign words -/

/-- Whether the character may stand in an importance mark. -/
def isMarkChar (c : Char) : Bool :=
  isBlank c || c == '!' || importantWord.contains (foldChar c)

lemma isMarkChar_of_isMark {text : List Char} (h : isMark text = true) :
    ∀ c ∈ text, isMarkChar c = true := by
  refine forall_of_isMark h (fun c hc => ?_) (by decide) fun c hc => ?_
  · simp [isMarkChar, hc]
  · simp [isMarkChar, hc]

/-- A mark begins with a blank or with its exclamation mark. -/
lemma exists_cons_of_isMark {text : List Char} (h : isMark text = true) :
    ∃ c cs, text = c :: cs ∧ (isBlank c = true ∨ c = '!') := by
  obtain @⟨lead, _, _, _, hlead, _, _, _⟩ := isMark_iff_spellsMark.mp h
  cases lead with
  | nil => exact ⟨_, _, rfl, .inr rfl⟩
  | cons c cs => exact ⟨c, _, rfl, .inl (hlead c List.mem_cons_self)⟩

/-- The word holds a character that stands in no mark, and no mark begins inside it. -/
structure IsForeign (word : List Char) : Prop where
  foreign : ∃ c ∈ word, isMarkChar c = false
  inside : ∀ c ∈ word, isBlank c = false ∧ c ≠ '!'

instance (word : List Char) : Decidable (IsForeign word) :=
  decidable_of_iff
    (word.any (!isMarkChar ·) = true ∧ word.all (fun c => !isBlank c && c != '!') = true)
    ⟨fun h => ⟨by simpa using h.1, by simpa using h.2⟩,
      fun h => ⟨by simpa using h.foreign, by simpa using h.inside⟩⟩

lemma IsForeign.ne_nil {word : List Char} (h : IsForeign word) : word ≠ [] := by
  rintro rfl
  obtain ⟨c, hc, _⟩ := h.foreign
  exact absurd hc List.not_mem_nil

lemma IsForeign.endsBlank {word : List Char} (h : IsForeign word) : endsBlank word = false := by
  obtain ⟨front, c, rfl⟩ := List.eq_nil_or_concat' word |>.resolve_left h.ne_nil
  rw [endsBlank_concat]
  exact (h.inside c (List.mem_append_right _ List.mem_cons_self)).1

/-! ## Changes -/

/-- The one text becomes the other when foreign words are exchanged for others. -/
inductive BesideMark : List Char → List Char → Prop
  | nil : BesideMark [] []
  | keep (c : Char) {a b : List Char} (rest : BesideMark a b) : BesideMark (c :: a) (c :: b)
  | exchange {word other a b : List Char} (hword : IsForeign word) (hother : IsForeign other)
      (rest : BesideMark a b) : BesideMark (word ++ a) (other ++ b)

namespace BesideMark

lemma refl (text : List Char) : BesideMark text text := by
  induction text with
  | nil => exact .nil
  | cons c cs ih => exact .keep c ih

lemma append {a b c d : List Char} (h : BesideMark a b) (k : BesideMark c d) :
    BesideMark (a ++ c) (b ++ d) := by
  induction h with
  | nil => exact k
  | keep c _ ih => exact .keep c ih
  | exchange hword hother _ ih =>
      rw [List.append_assoc, List.append_assoc]
      exact .exchange hword hother ih

lemma eq_nil_iff {a b : List Char} (h : BesideMark a b) : a = [] ↔ b = [] := by
  cases h with
  | nil => exact Iff.rfl
  | keep c _ => simp
  | exchange hword hother _ => simp [hword.ne_nil, hother.ne_nil]

lemma endsBlank {a b : List Char} (h : BesideMark a b) : endsBlank a = endsBlank b := by
  induction h with
  | nil => rfl
  | @keep c a b rest ih =>
      by_cases ha : a = []
      · rw [ha, rest.eq_nil_iff.mp ha]
      · have hb : b ≠ [] := mt rest.eq_nil_iff.mpr ha
        rw [← List.singleton_append, endsBlank_append ha, ih, ← endsBlank_append hb [c],
          List.singleton_append]
  | @exchange word other a b hword hother rest ih =>
      by_cases ha : a = []
      · rw [ha, rest.eq_nil_iff.mp ha, List.append_nil, List.append_nil, hword.endsBlank,
          hother.endsBlank]
      · rw [endsBlank_append ha, endsBlank_append (mt rest.eq_nil_iff.mpr ha), ih]

/-- Nothing was exchanged where all characters are those of marks. -/
lemma eq_of_forall {a b : List Char} (h : BesideMark a b) (hb : ∀ c ∈ b, isMarkChar c = true) :
    a = b := by
  induction h with
  | nil => rfl
  | keep c _ ih => rw [ih (List.forall_mem_cons.mp hb).2]
  | exchange _ hother _ _ =>
      obtain ⟨c, hc, hforeign⟩ := hother.foreign
      rw [hb c (List.mem_append_left _ hc)] at hforeign
      cases hforeign

/-- **The mark at the end of the one text stands at the end of the other.** -/
theorem exists_append {a b : List Char} (h : BesideMark a b) {front mark : List Char}
    (hb : b = front ++ mark) (hmark : isMark mark = true) : ∃ front', a = front' ++ mark := by
  induction h generalizing front with
  | nil =>
      obtain ⟨-, rfl⟩ := List.append_eq_nil_iff.mp hb.symm
      exact absurd hmark (by decide)
  | @keep c a b rest ih =>
      cases front with
      | nil =>
          have hsame : c :: a = c :: b :=
            (rest.keep c).eq_of_forall (hb ▸ isMarkChar_of_isMark hmark)
          exact ⟨[], hsame.trans hb⟩
      | cons d ds =>
          obtain ⟨front', rfl⟩ := ih (List.cons.inj hb).2
          exact ⟨c :: front', rfl⟩
  | @exchange word other a b hword hother rest ih =>
      rcases List.append_eq_append_iff.mp hb with ⟨z, _, hbehind⟩ | ⟨z, hfront, hbehind⟩
      · obtain ⟨front', rfl⟩ := ih hbehind
        exact ⟨word ++ front', (List.append_assoc _ _ _).symm⟩
      · -- the mark would begin inside the foreign word, or right behind it
        cases z with
        | nil =>
            obtain ⟨front', rfl⟩ := ih (List.nil_append mark ▸ hbehind.symm)
            exact ⟨word ++ front', (List.append_assoc _ _ _).symm⟩
        | cons d ds =>
            obtain ⟨c, cs, hcs, hc⟩ := exists_cons_of_isMark hmark
            rw [hcs] at hbehind
            obtain rfl := (List.cons.inj hbehind).1
            have hinside := hother.inside c (hfront ▸ List.mem_append_right _ List.mem_cons_self)
            rcases hc with hc | hc
            · rw [hinside.1] at hc
              cases hc
            · exact absurd hc hinside.2

/-- **A changed body takes the mark of the value.** -/
theorem splitImportance {value body : List Char}
    (h : BesideMark (splitImportance value).1 body) :
    Css.splitImportance (attachImportance body (Css.splitImportance value).2) =
      (body, (Css.splitImportance value).2) := by
  rcases splitImportance_cases value with ⟨_, _, _, hend, himportant⟩ | ⟨hsplit, hnone⟩
  · rw [himportant, splitImportance_attachImportance (h.endsBlank.symm.trans hend)]
  · rw [hsplit] at h ⊢
    refine splitImportance_of_forall fun front mark hbody => ?_
    rw [← Bool.not_eq_true]
    intro hmark
    obtain ⟨front', hvalue⟩ := h.exists_append hbody hmark
    rw [hnone front' mark hvalue] at hmark
    cases hmark

end BesideMark

end AtomicStyle.Css
