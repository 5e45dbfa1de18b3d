import AtomicStyle.Css.Component
import AtomicStyle.Css.Duration
import AtomicStyle.Proofs.Css.NumberReading
import AtomicStyle.Proofs.Text.Caseless

/-!
# Texts of one duration

A text that is a duration consists of a decimal, a unit and perhaps a final line break
(`IsDurationText`).  Canonicalizing the durations in it takes it as one token and leaves only the
line break (`IsDurationText.canonicalizeDurations_eq`).
-/

namespace AtomicStyle.Css

open Text

/-- The milliseconds of a text that is a duration. -/
def durationOf? (text : List Char) : Option Binary64 :=
  (Decimal.read? text).bind fun (d, rest) =>
    if isOneOfWords ["ms", "s"] rest then some (milliseconds d (dropFinalBreak rest)) else none

/-- Whether a text is a duration that is written in milliseconds. -/
def isInMilliseconds (text : List Char) : Bool :=
  (Decimal.read? text).any fun (_, rest) => isOneOfWords ["ms"] rest

/-- The line break at the end of a text, if there is one. -/
def finalBreak (text : List Char) : List Char :=
  text.drop (dropFinalBreak text).length

/-! ## The parts of a duration -/

/-- The text is a decimal and a unit of time, and perhaps a line break. -/
structure IsDurationText (text : List Char) (d : Decimal) (unit behind : List Char) : Prop where
  read : Decimal.read? text = some (d, unit ++ behind)
  isUnit : unit.map foldChar = ['m', 's'] ∨ unit.map foldChar = ['s']
  isEnd : behind = [] ∨ behind = ['\n']

lemma isOneOfWords_iff {words : List String} {text : List Char} :
    isOneOfWords words text = true ↔
      ∃ word ∈ words, ∃ unit behind, text = unit ++ behind ∧ unit.map foldChar = word.toList ∧
        (behind = [] ∨ behind = ['\n']) := by
  have hany : isOneOfWords words text =
      words.any fun word => (dropWord? word.toList text).any isEnd := by
    refine congrArg words.any (funext fun word => ?_)
    cases dropWord? word.toList text <;> rfl
  rw [hany, List.any_eq_true]
  simp only [any_isEnd_dropWord?_iff]

lemma exists_isDurationText {text : List Char} (h : isDuration text = true) :
    ∃ d unit behind, IsDurationText text d unit behind := by
  rw [isDuration] at h
  cases hread : Decimal.read? text with
  | none =>
      rw [hread] at h
      cases h
  | some found =>
      rw [hread] at h
      obtain ⟨word, hword, unit, behind, hrest, hunit, hend⟩ := isOneOfWords_iff.mp h
      refine ⟨found.1, unit, behind, by rw [hread, ← hrest], ?_, hend⟩
      rcases List.mem_pair.mp hword with rfl | rfl
      · exact Or.inl hunit
      · exact Or.inr hunit

section

variable {text unit behind : List Char} {d : Decimal}

lemma IsDurationText.isDuration (h : IsDurationText text d unit behind) :
    isDuration text = true := by
  rw [Css.isDuration, h.read]
  rcases h.isUnit with hunit | hunit
  · exact isOneOfWords_iff.mpr ⟨"ms", List.mem_pair.mpr (Or.inl rfl), unit, behind, rfl, hunit,
      h.isEnd⟩
  · exact isOneOfWords_iff.mpr ⟨"s", List.mem_pair.mpr (Or.inr rfl), unit, behind, rfl, hunit,
      h.isEnd⟩

/-- A unit ends in a letter, behind which a line break is dropped. -/
lemma IsDurationText.dropFinalBreak_eq (h : IsDurationText text d unit behind) :
    dropFinalBreak (unit ++ behind) = unit := by
  have hbreak : foldChar '\n' ≠ 's' := by decide
  rcases h.isUnit with hunit | hunit
  · obtain ⟨c, rest, rfl, -, hrest⟩ := List.map_eq_cons_iff.mp hunit
    obtain ⟨e, rfl, he⟩ := List.map_eq_singleton_iff.mp hrest
    have hne : e ≠ '\n' := fun heq => hbreak (heq ▸ he)
    rcases h.isEnd with rfl | rfl
    · simp [dropFinalBreak, hne]
    · simp [dropFinalBreak]
  · obtain ⟨e, rfl, he⟩ := List.map_eq_singleton_iff.mp hunit
    have hne : e ≠ '\n' := fun heq => hbreak (heq ▸ he)
    rcases h.isEnd with rfl | rfl
    · simp [dropFinalBreak, hne]
    · simp [dropFinalBreak]

lemma IsDurationText.durationOf?_eq (h : IsDurationText text d unit behind) :
    durationOf? text = some (milliseconds d unit) := by
  have hduration := h.isDuration
  rw [Css.isDuration, h.read] at hduration
  rw [durationOf?, h.read, Option.bind_some]
  dsimp only
  rw [if_pos hduration, h.dropFinalBreak_eq]

lemma IsDurationText.isInMilliseconds_iff (h : IsDurationText text d unit behind) :
    isInMilliseconds text = true ↔ unit.map foldChar = ['m', 's'] := by
  rw [isInMilliseconds, h.read, Option.any_some]
  constructor
  · intro hword
    rcases h.isUnit with hunit | hunit
    · exact hunit
    · obtain ⟨e, rfl, he⟩ := List.map_eq_singleton_iff.mp hunit
      obtain ⟨word, hmem, unit', behind', htext, hunit', -⟩ := isOneOfWords_iff.mp hword
      obtain rfl := List.mem_singleton.mp hmem
      obtain ⟨c, rest, rfl, hc, -⟩ := List.map_eq_cons_iff.mp hunit'
      obtain rfl := (List.cons.inj htext).1
      exact absurd (hc.symm.trans he) (by decide)
  · exact fun hunit => isOneOfWords_iff.mpr
      ⟨"ms", List.mem_singleton_self _, unit, behind, rfl, hunit, h.isEnd⟩

/-! ## One token -/

/-- A decimal takes at least one character. -/
lemma exists_of_readUnsigned? {rest : List Char}
    (h : Decimal.readUnsigned? text = some (d, rest)) :
    ∃ number, text = number ++ rest ∧ number ≠ [] := by
  rw [Decimal.readUnsigned?] at h
  split at h
  case h_1 fraction hwhole =>
      obtain ⟨digits, rfl, -⟩ := exists_spells_of_readDigits hwhole
      split at h
      · cases h
      case h_2 hfraction =>
          obtain ⟨-, rfl⟩ := Prod.mk.inj (Option.some.inj h)
          obtain ⟨digits', rfl, -⟩ := exists_spells_of_readDigits hfraction
          exact ⟨digits ++ '.' :: digits', by simp, by simp⟩
  case h_2 => cases h
  case h_3 fraction _ hwhole =>
      obtain ⟨digits, rfl, -⟩ := exists_spells_of_readDigits hwhole
      obtain ⟨-, rfl⟩ := Prod.mk.inj (Option.some.inj h)
      obtain ⟨digits', hfraction, -⟩ :=
        exists_spells_of_readDigits (show readDigits fraction = (_, _) from rfl)
      refine ⟨digits ++ '.' :: digits', ?_, by simp⟩
      rw [List.append_assoc, List.cons_append, ← hfraction]
  case h_4 hempty _ hwhole =>
      obtain ⟨digits, rfl, hdigits⟩ := exists_spells_of_readDigits hwhole
      obtain ⟨-, rfl⟩ := Prod.mk.inj (Option.some.inj h)
      refine ⟨digits, rfl, ?_⟩
      rintro rfl
      exact hempty (List.length_eq_zero_iff.mp hdigits.length_eq)

lemma exists_of_read? {rest : List Char} (h : Decimal.read? text = some (d, rest)) :
    ∃ number, text = number ++ rest ∧ number ≠ [] := by
  obtain ⟨sign, hsign⟩ : ∃ sign, text = sign ++ (readSign text).2 := by
    unfold readSign
    split
    · exact ⟨['-'], rfl⟩
    · exact ⟨['+'], rfl⟩
    · exact ⟨[], rfl⟩
  rw [Decimal.read?] at h
  generalize readSign text = signed at *
  obtain ⟨⟨found, behind⟩, hfound, hread⟩ := Option.map_eq_some_iff.mp h
  obtain ⟨-, rfl⟩ := Prod.mk.inj hread
  obtain ⟨number, hnumber, hne⟩ := exists_of_readUnsigned? hfound
  refine ⟨sign ++ number, ?_, List.append_ne_nil_of_right_ne_nil _ hne⟩
  rw [hsign, hnumber, List.append_assoc]

lemma dropFinalBreak_append {front back : List Char} (hne : back ≠ []) :
    dropFinalBreak (front ++ back) = front ++ dropFinalBreak back := by
  induction front with
  | nil => rfl
  | cons c cs ih =>
      obtain ⟨e, es, hcons⟩ := List.exists_cons_of_ne_nil
        (List.append_ne_nil_of_right_ne_nil cs hne)
      rw [List.cons_append, hcons, dropFinalBreak, ← hcons, ih, List.cons_append]

lemma IsDurationText.finalBreak_eq (h : IsDurationText text d unit behind) :
    finalBreak text = behind := by
  obtain ⟨number, htext, -⟩ := exists_of_read? h.read
  have hne : unit ++ behind ≠ [] := by
    refine List.append_ne_nil_of_left_ne_nil (fun hnil => ?_) _
    rcases h.isUnit with hunit | hunit <;> rw [hnil] at hunit <;> cases hunit
  rw [finalBreak, htext, dropFinalBreak_append hne, h.dropFinalBreak_eq, ← List.append_assoc,
    List.drop_left']
  rfl

/-- A duration is one token, of which only the line break is left. -/
lemma IsDurationText.durationToken?_eq (h : IsDurationText text d unit behind) :
    durationToken? text =
      some (formatMilliseconds (milliseconds d unit), text.length - behind.length) := by
  have hdrop : (dropWord? ['m', 's'] (unit ++ behind)).or (dropWord? ['s'] (unit ++ behind)) =
      some behind := by
    rcases h.isUnit with hunit | hunit
    · rw [dropWord?_eq_some_iff.mpr ⟨unit, rfl, hunit⟩, Option.some_or]
    · obtain ⟨e, rfl, he⟩ := List.map_eq_singleton_iff.mp hunit
      have hne : foldChar e ≠ 'm' := by
        rw [he]
        decide
      rw [dropWord?_eq_some_iff.mpr ⟨[e], rfl, hunit⟩, List.singleton_append, dropWord?, if_neg hne,
        Option.none_or]
  have hend : continuesWord behind = false := by
    rcases h.isEnd with rfl | rfl
    · rfl
    · decide
  rw [durationToken?, h.read]
  dsimp only
  rw [hdrop]
  dsimp only
  rw [hend, if_neg Bool.false_ne_true, take_length_sub]

lemma canonicalizeFrom_skip (before : Option Char) (token rest : List Char) :
    ∃ last, canonicalizeFrom before token.length (token ++ rest) =
      canonicalizeFrom last 0 rest := by
  induction token generalizing before with
  | nil => exact ⟨before, rfl⟩
  | cons c cs ih =>
      obtain ⟨last, hlast⟩ := ih (some c)
      refine ⟨last, ?_⟩
      rw [List.cons_append, canonicalizeFrom, List.length_cons, if_pos (Nat.succ_pos _)]
      exact hlast

/-- **The duration is written in its canonical unit**, and the line break is kept. -/
theorem IsDurationText.canonicalizeDurations_eq (h : IsDurationText text d unit behind) :
    canonicalizeDurations text = formatMilliseconds (milliseconds d unit) ++ behind := by
  obtain ⟨number, htext, hne⟩ := exists_of_read? h.read
  obtain ⟨c, cs, rfl⟩ := List.exists_cons_of_ne_nil hne
  have htoken := h.durationToken?_eq
  have htaken : text.length - behind.length - 1 = (cs ++ unit).length := by
    rw [htext]
    simp only [List.length_append, List.length_cons]
    omega
  have hbehind : ∀ last, canonicalizeFrom last 0 behind = behind := by
    intro last
    rcases h.isEnd with rfl | rfl
    · rfl
    · have hnone : durationToken? ['\n'] = none := by decide
      rw [canonicalizeFrom, if_neg (lt_irrefl 0), hnone, ite_self]
      rfl
  obtain ⟨last, hlast⟩ := canonicalizeFrom_skip (some c) (cs ++ unit) behind
  rw [htext, List.cons_append] at htoken htaken
  rw [canonicalizeDurations, htext, List.cons_append, canonicalizeFrom, if_neg (lt_irrefl 0),
    mayBeginDuration, if_pos rfl, htoken]
  dsimp only
  rw [htaken, ← List.append_assoc, hlast, hbehind]

end

end AtomicStyle.Css
