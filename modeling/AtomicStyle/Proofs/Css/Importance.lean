import AtomicStyle.Css.Importance
import AtomicStyle.Proofs.Css.Respelling
import AtomicStyle.Proofs.Text.Caseless

/-!
# Importance marks and safety

A value is checked, rendered and flipped without its importance mark, which is cut off before and
put back behind.  None of this makes a difference to its safety.

**Spellings.**  `SpellsMark` is the grammar of the mark: blanks, the exclamation mark, blanks and
the word, each letter written with a member of its family.  `isMark_iff_spellsMark` says that the
texts of the grammar are recognised, and no others, so the characters of a mark are known
(`forall_of_isMark`).

**Words in any case.**  A character that folds to an inert one is inert (`isInert_of_foldChar`),
so what is recognised as a word in any case is inert like the word.

**The mark.**  What is cut off as a mark is inert, and so is what is put back.  Inert characters
behind a text make no difference to its safety (`terminator?_append_inert`), so a body is as safe
as the value it was cut from (`terminator?_splitImportance`), and a value as safe as the body it
is put together from (`terminator?_attachImportance`).
-/

namespace AtomicStyle.Css

open Text

/-! ## Spellings -/

/-- The spellings of the mark: blanks, the exclamation mark, blanks, the word with each letter
written as a member of its family, and at most one line break. -/
inductive SpellsMark : List Char → Prop
  | intro {lead gap word ending : List Char} (hlead : ∀ c ∈ lead, isBlank c = true)
      (hgap : ∀ c ∈ gap, isBlank c = true)
      (hword : List.Forall₂ (fun c letter => c ∈ caseFamily letter) word importantWord)
      (hending : ending = [] ∨ ending = ['\n']) :
      SpellsMark (lead ++ '!' :: (gap ++ (word ++ ending)))

lemma map_foldChar_eq_importantWord_iff {word : List Char} :
    word.map foldChar = importantWord ↔
      List.Forall₂ (fun c letter => c ∈ caseFamily letter) word importantWord :=
  map_foldChar_eq_iff (List.forall_iff_forall_mem.mp (by decide))

/-- The word of the mark holds no blank, in whatever case it is written. -/
lemma not_isBlank_of_map_foldChar {text : List Char} (h : text.map foldChar = importantWord) :
    ∀ c ∈ text, isBlank c = false := by
  have hword : ∀ c ∈ importantWord, isBlank c = false :=
    List.forall_iff_forall_mem.mp (by decide)
  intro c hc
  by_contra hblank
  have hblank : isBlank c = true := Bool.not_eq_false _ ▸ hblank
  have hmem : foldChar c ∈ importantWord := h ▸ List.mem_map_of_mem hc
  rw [foldChar_of_isBlank hblank] at hmem
  rw [hword c hmem] at hblank
  cases hblank

lemma ne_nil_of_map_foldChar {text : List Char} (h : text.map foldChar = importantWord) :
    text ≠ [] := by
  rintro rfl
  cases h

lemma isImportantWord_iff_exists {text : List Char} :
    isImportantWord text = true ↔
      ∃ word ending, text = word ++ ending ∧ word.map foldChar = importantWord ∧
        (ending = [] ∨ ending = ['\n']) := by
  have hany : isImportantWord text = (dropWord? importantWord text).any isEnd := by
    unfold isImportantWord
    cases dropWord? importantWord text <;> rfl
  rw [hany, any_isEnd_dropWord?_iff]

lemma isMark_of_trimStart {text rest : List Char} (h : trimStart text = '!' :: rest) :
    isMark text = isImportantWord (trimStart rest) := by
  rw [isMark, h]
  rfl

/-- **The texts that are recognised as a mark are its spellings.** -/
theorem isMark_iff_spellsMark {text : List Char} : isMark text = true ↔ SpellsMark text := by
  constructor
  · intro h
    unfold isMark at h
    split at h
    case h_1 rest hbang =>
        obtain ⟨word, ending, hrest, hfold, hending⟩ := isImportantWord_iff_exists.mp h
        obtain ⟨lead, htext, hlead⟩ := exists_append_trimStart text
        obtain ⟨gap, hgaprest, hgap⟩ := exists_append_trimStart rest
        rw [htext, hbang, hgaprest, hrest]
        exact .intro hlead hgap (map_foldChar_eq_importantWord_iff.mp hfold) hending
    case h_2 => cases h
  · rintro @⟨lead, gap, word, ending, hlead, hgap, hword, hending⟩
    have hfold := map_foldChar_eq_importantWord_iff.mpr hword
    have hstart : startsBlank (word ++ ending) = false := by
      rw [startsBlank_append (ne_nil_of_map_foldChar hfold)]
      exact (isTidy_of_forall (not_isBlank_of_map_foldChar hfold)).first
    have hbang : trimStart (lead ++ '!' :: (gap ++ (word ++ ending))) =
        '!' :: (gap ++ (word ++ ending)) :=
      (trimStart_append_of_forall hlead _).trans (trimStart_eq_self rfl)
    rw [isMark_of_trimStart hbang, trimStart_append_of_forall hgap, trimStart_eq_self hstart]
    exact isImportantWord_iff_exists.mpr ⟨word, ending, rfl, hfold, hending⟩

/-- What holds of blanks, of the exclamation mark and of the letters of the word holds of all
characters of a mark. -/
lemma forall_of_isMark {p : Char → Prop} {text : List Char} (h : isMark text = true)
    (hblank : ∀ c, isBlank c = true → p c) (hbang : p '!')
    (hletter : ∀ c, foldChar c ∈ importantWord → p c) : ∀ c ∈ text, p c := by
  obtain @⟨lead, gap, word, ending, hlead, hgap, hword, hending⟩ := isMark_iff_spellsMark.mp h
  have hfold := map_foldChar_eq_importantWord_iff.mpr hword
  have hbreak := isBlank_of_ending hending
  simp only [List.forall_mem_append, List.forall_mem_cons]
  exact ⟨fun c hc => hblank c (hlead c hc), hbang, fun c hc => hblank c (hgap c hc),
    fun c hc => hletter c (hfold ▸ List.mem_map_of_mem hc), fun c hc => hblank c (hbreak c hc)⟩

/-! ## Words in any case -/

lemma isInert_of_foldChar {c : Char} (h : isInert (foldChar c) = true) : isInert c = true := by
  have hfold : (markers.any fun c => isInert (foldChar c)) = false := by decide
  exact isInert_of_any_markers hfold h

lemma inert_of_map_foldChar {text word : List Char} (h : text.map foldChar = word)
    (hword : Inert word) : Inert text := by
  intro c hc
  have hmem : foldChar c ∈ word := h ▸ List.mem_map_of_mem hc
  exact isInert_of_foldChar (hword _ hmem)

/-! ## The mark -/

/-- Inert characters behind a text make no difference to its safety. -/
theorem terminator?_append_inert {body tail : List Char} (htail : Inert tail) :
    terminator? (body ++ tail) = none ↔ terminator? body = none := by
  rw [terminator?_eq_none_iff, terminator?_eq_none_iff, Standing.read_append]
  by_cases hne : tail = []
  · simp [hne]
  · constructor
    · rintro ⟨t, ht, hclosed⟩
      obtain ⟨u, hu, hut⟩ := Option.bind_eq_some_iff.mp ht
      rw [Standing.read_inert htail hne, Option.some.injEq] at hut
      subst hut
      exact ⟨u, hu, hclosed⟩
    · rintro ⟨u, hu, hclosed⟩
      refine ⟨{ u with escaped := false }, ?_, hclosed⟩
      rw [hu, Option.bind_some, Standing.read_inert htail hne]

/-- An importance mark is inert in all its spellings. -/
lemma inert_of_isMark {text : List Char} (h : isMark text = true) : Inert text := by
  have hword : Inert importantWord := by decide
  refine forall_of_isMark h (fun _ => isInert_of_isBlank) rfl fun c hc => ?_
  exact isInert_of_foldChar (hword _ hc)

/-- What a mark is cut off from ends in an inert text. -/
lemma exists_beforeMark_append {text body : List Char} (h : beforeMark? text = some body) :
    ∃ mark, text = body ++ mark ∧ Inert mark := by
  induction text generalizing body with
  | nil => simp [beforeMark?] at h
  | cons c cs ih =>
      rw [beforeMark?] at h
      split_ifs at h with hmark
      · obtain rfl := Option.some.inj h
        exact ⟨c :: cs, rfl, inert_of_isMark hmark⟩
      · obtain ⟨rest, hrest, rfl⟩ := Option.map_eq_some_iff.mp h
        obtain ⟨mark, rfl, hinert⟩ := ih hrest
        exact ⟨mark, rfl, hinert⟩

/-- A value is its body and an inert text. -/
lemma exists_splitImportance_append (value : List Char) :
    ∃ mark, value = (splitImportance value).1 ++ mark ∧ Inert mark := by
  unfold splitImportance
  split
  case h_1 body h => exact exists_beforeMark_append h
  case h_2 => exact ⟨[], by simp, inert_nil⟩

/-- **A body is as safe as the value it was cut from.** -/
theorem terminator?_splitImportance {value : List Char} :
    terminator? (splitImportance value).1 = none ↔ terminator? value = none := by
  obtain ⟨mark, hvalue, hmark⟩ := exists_splitImportance_append value
  conv_rhs => rw [hvalue]
  exact (terminator?_append_inert hmark).symm

/-- Putting a mark behind a body makes no difference to its safety. -/
theorem terminator?_attachImportance {body : List Char} {important : Bool} :
    terminator? (attachImportance body important) = none ↔ terminator? body = none := by
  cases important with
  | false => rw [attachImportance_false]
  | true =>
      have hmark : Inert (' ' :: importantMark) := by decide
      exact terminator?_append_inert hmark

end AtomicStyle.Css
