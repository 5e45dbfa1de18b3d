import AtomicStyle.Proofs.Css.BesideMark
import AtomicStyle.Proofs.Fault.Flip
import AtomicStyle.Proofs.Text.Ascii

/-!
# Side words exchanged and exchanged again

The flip of words finds the words `left` and `right` that stand alone, and puts the opposite in
their place.  The flip of gradients does so in the directions of the gradients.  Both look for the
places in the text as it stands, so a second flip has to find the same ones in the flipped text.

**Relations.**  `WordsFlipped` and `GradientsFlipped` say of two texts that the same places are
found in both, and hold opposite words.  Both relations are symmetric, and the flip of the one text is the
other (`WordsFlipped.flip`, `GradientsFlipped.flip`).

**Words.**  Behind a character of a word both texts go on with the same word
(`WordsFlipped.takeWhile`), so no word is found in the one that is not found in the other.

**Gradients.**  What looks like a gradient in the flipped text was there before
(`GradientsFlipped.exists_append`): the direction of another gradient stands behind a head, which no
direction holds.

Words of capitals come out in small letters, and words with letters outside ASCII have no opposite.
So the texts are *plain*: of ASCII, and without capitals.
-/

namespace AtomicStyle.Flip

open Css Text

/-- The text is of ASCII and has no capitals. -/
def IsPlain (text : List Char) : Prop :=
  ∀ c ∈ text, c.toNat < 0x80 ∧ c.isUpper = false

instance (text : List Char) : Decidable (IsPlain text) :=
  List.decidableBAll _ text

@[simp] lemma isPlain_append {a b : List Char} : IsPlain (a ++ b) ↔ IsPlain a ∧ IsPlain b :=
  List.forall_mem_append

@[simp] lemma isPlain_cons {c : Char} {cs : List Char} :
    IsPlain (c :: cs) ↔ (c.toNat < 0x80 ∧ c.isUpper = false) ∧ IsPlain cs :=
  List.forall_mem_cons

lemma map_foldChar_of_isPlain {text : List Char} (h : IsPlain text) : text.map foldChar = text := by
  refine (List.map_congr_left fun c hc => ?_).trans (List.map_id _)
  obtain ⟨hascii, hcapital⟩ := h c hc
  rw [foldChar, if_pos hascii, toLower_of_not_isUpper hcapital, id]

/-! ## Words -/

/-- The letters of the side words, in any case, are letters of words. -/
lemma isWordChar_of_foldChar_mem {c : Char} (h : foldChar c ∈ left ++ right) :
    isWordChar c = true := by
  have hascii : ∀ c : Char, c.toNat < 0x80 → foldChar c ∈ left ++ right → isWordChar c = true :=
    forall_ascii (by decide +kernel)
  by_cases hc : c.toNat < 0x80
  · exact hascii c hc h
  · rw [foldChar, if_neg hc] at h
    split_ifs at h with hi hs hk
    · rcases Bool.or_eq_true .. ▸ hi with hi | hi
      · exact of_decide_eq_true hi ▸ (by decide +kernel)
      · exact of_decide_eq_true hi ▸ (by decide +kernel)
    · exact absurd h (by decide)
    · exact absurd h (by decide)
    · have hside : ∀ d ∈ left ++ right, d.toNat < 0x80 :=
        List.forall_iff_forall_mem.mp (by decide)
      exact absurd (hside c h) hc

/-- **Where a side word is found.** -/
theorem sideWord?_eq_some_iff {before : Option Char} {text word : List Char} :
    sideWord? before text = some word ↔
      before.any isWordChar = false ∧ (word.map foldChar = left ∨ word.map foldChar = right) ∧
        ∃ rest, text = word ++ rest ∧ continues rest = false := by
  refine ⟨exists_of_sideWord?, ?_⟩
  rintro ⟨hbefore, hfold, rest, rfl, hrest⟩
  have hdrop : (dropWord? left (word ++ rest)).or (dropWord? right (word ++ rest)) = some rest := by
    rcases hfold with hleft | hright
    · rw [dropWord?_eq_some_iff.mpr ⟨word, rfl, hleft⟩, Option.some_or]
    · have hnone : dropWord? left (word ++ rest) = none := by
        cases word with
        | nil => cases hright
        | cons c cs =>
            have hc : foldChar c = 'r' := (List.cons.inj hright).1
            rw [left, List.cons_append, dropWord?, if_neg (by rw [hc]; decide)]
      rw [hnone, Option.none_or, dropWord?_eq_some_iff.mpr ⟨word, rfl, hright⟩]
  rw [sideWord?, hbefore, if_neg Bool.false_ne_true, hdrop]
  simp [hrest]

lemma opposite_left : opposite left = .ok right :=
  eq_ok_of_toOption (by decide +kernel)

lemma opposite_right : opposite right = .ok left :=
  eq_ok_of_toOption (by decide +kernel)

/-- The side words of the one text are the opposites of those of the other; `before` is the
character in front of both. -/
inductive WordsFlipped : Option Char → List Char → List Char → Prop
  | nil {before : Option Char} : WordsFlipped before [] []
  | keep {before : Option Char} (c : Char) {a b : List Char}
      (hnone : sideWord? before (c :: a) = none) (hnone' : sideWord? before (c :: b) = none)
      (rest : WordsFlipped (some c) a b) : WordsFlipped before (c :: a) (c :: b)
  | toRight {before : Option Char} {a b : List Char} (hbefore : before.any isWordChar = false)
      (ha : continues a = false) (hb : continues b = false) (rest : WordsFlipped (some 't') a b) :
      WordsFlipped before (left ++ a) (right ++ b)
  | toLeft {before : Option Char} {a b : List Char} (hbefore : before.any isWordChar = false)
      (ha : continues a = false) (hb : continues b = false) (rest : WordsFlipped (some 't') a b) :
      WordsFlipped before (right ++ a) (left ++ b)

namespace WordsFlipped

variable {before : Option Char} {a b : List Char}

lemma symm (h : WordsFlipped before a b) : WordsFlipped before b a := by
  induction h with
  | nil => exact .nil
  | keep c hnone hnone' _ ih => exact .keep c hnone' hnone ih
  | toRight hbefore ha hb _ ih => exact .toLeft hbefore hb ha ih
  | toLeft hbefore ha hb _ ih => exact .toRight hbefore hb ha ih

/-- **The flip of the one text is the other.** -/
theorem flip (h : WordsFlipped before a b) : flipWordsFrom before 0 a = .ok b := by
  induction h with
  | nil => rfl
  | keep c hnone _ _ ih =>
      rw [flipWordsFrom, if_neg (Nat.lt_irrefl 0), hnone]
      exact bind_eq_ok.mpr ⟨_, ih, rfl⟩
  | @toRight before a b hbefore ha _ _ ih =>
      have hword : sideWord? before (left ++ a) = some left :=
        sideWord?_eq_some_iff.mpr ⟨hbefore, .inl (by decide), a, rfl, ha⟩
      have hskip : flipWordsFrom (some 'l') 3 ('e' :: 'f' :: 't' :: a) = .ok b := ih
      rw [left, List.cons_append] at hword ⊢
      rw [flipWordsFrom, if_neg (Nat.lt_irrefl 0), hword]
      exact bind_eq_ok.mpr ⟨right, opposite_left, bind_eq_ok.mpr ⟨b, hskip, rfl⟩⟩
  | @toLeft before a b hbefore ha _ _ ih =>
      have hword : sideWord? before (right ++ a) = some right :=
        sideWord?_eq_some_iff.mpr ⟨hbefore, .inr (by decide), a, rfl, ha⟩
      have hskip : flipWordsFrom (some 'r') 4 ('i' :: 'g' :: 'h' :: 't' :: a) = .ok b := ih
      rw [right, List.cons_append] at hword ⊢
      rw [flipWordsFrom, if_neg (Nat.lt_irrefl 0), hword]
      exact bind_eq_ok.mpr ⟨left, opposite_right, bind_eq_ok.mpr ⟨b, hskip, rfl⟩⟩

/-- Behind a character of a word both texts go on with the same word. -/
lemma takeWhile (h : WordsFlipped before a b) (hbefore : before.any isWordChar = true) :
    a.takeWhile isWordChar = b.takeWhile isWordChar := by
  induction h with
  | nil => rfl
  | keep c _ _ _ ih =>
      rw [List.takeWhile_cons, List.takeWhile_cons]
      split_ifs with hc
      · rw [ih hc]
      · rfl
  | toRight hnot _ _ _ _ => rw [hnot] at hbefore; cases hbefore
  | toLeft hnot _ _ _ _ => rw [hnot] at hbefore; cases hbefore

lemma continues (h : WordsFlipped before a b) : continues a = continues b := by
  have hletters : isWordChar 'l' = true ∧ isWordChar 'r' = true := by decide +kernel
  cases h with
  | nil => rfl
  | keep _ _ _ _ => rfl
  | toRight _ _ _ _ => exact hletters.1.trans hletters.2.symm
  | toLeft _ _ _ _ => exact hletters.2.trans hletters.1.symm

lemma startsBlank (h : WordsFlipped before a b) : startsBlank a = startsBlank b := by
  have hletters : isBlank 'l' = false ∧ isBlank 'r' = false := by decide
  cases h with
  | nil => rfl
  | keep _ _ _ _ => rfl
  | toRight _ _ _ _ => exact hletters.1.trans hletters.2.symm
  | toLeft _ _ _ _ => exact hletters.2.trans hletters.1.symm

/-- The characters of the flipped text are those of the text and those of the side words. -/
lemma forall_mem {p : Char → Prop} (h : WordsFlipped before a b) (hsides : ∀ c ∈ left ++ right, p c)
    (ha : ∀ c ∈ a, p c) : ∀ c ∈ b, p c := by
  obtain ⟨hleft, hright⟩ := List.forall_mem_append.mp hsides
  induction h with
  | nil => exact ha
  | keep c _ _ _ ih =>
      obtain ⟨hc, ha⟩ := List.forall_mem_cons.mp ha
      exact List.forall_mem_cons.mpr ⟨hc, ih ha⟩
  | toRight _ _ _ _ ih =>
      exact List.forall_mem_append.mpr ⟨hright, ih (List.forall_mem_append.mp ha).2⟩
  | toLeft _ _ _ _ ih =>
      exact List.forall_mem_append.mpr ⟨hleft, ih (List.forall_mem_append.mp ha).2⟩

/-- Marks hold no side words. -/
lemma besideMark (h : WordsFlipped before a b) : BesideMark a b := by
  induction h with
  | nil => exact .nil
  | keep c _ _ _ ih => exact .keep c ih
  | toRight _ _ _ _ ih => exact .exchange (by decide) (by decide) ih
  | toLeft _ _ _ _ ih => exact .exchange (by decide) (by decide) ih

/-- No side word is found in front of a flipped text that was not found before. -/
lemma sideWord?_eq_none {c : Char} (h : WordsFlipped (some c) a b)
    (hnone : sideWord? before (c :: a) = none) : sideWord? before (c :: b) = none := by
  rw [Option.eq_none_iff_forall_ne_some]
  intro word hword
  obtain ⟨hbefore, hfold, rest, htext, hrest⟩ := sideWord?_eq_some_iff.mp hword
  have hletters : ∀ d ∈ word, isWordChar d = true := by
    intro d hd
    have hmem : foldChar d ∈ word.map foldChar := List.mem_map_of_mem hd
    rcases hfold with hfold | hfold
    · exact isWordChar_of_foldChar_mem (List.mem_append_left _ (hfold ▸ hmem))
    · exact isWordChar_of_foldChar_mem (List.mem_append_right _ (hfold ▸ hmem))
  cases word with
  | nil => rcases hfold with hfold | hfold <;> cases hfold
  | cons d ds =>
      obtain ⟨rfl, hb⟩ := List.cons.inj htext
      obtain ⟨hc, hds⟩ := List.forall_mem_cons.mp hletters
      have hrun : a.takeWhile isWordChar = ds := by
        have hbehind : rest.takeWhile isWordChar = [] := by
          cases rest with
          | nil => rfl
          | cons e es => exact List.takeWhile_cons_of_neg (by simpa [Flip.continues] using hrest)
        rw [h.takeWhile hc, hb, List.append_eq, List.takeWhile_append_of_pos hds, hbehind,
          List.append_nil]
      have hafter : Flip.continues (a.dropWhile isWordChar) = false := by
        cases hdrop : a.dropWhile isWordChar with
        | nil => rfl
        | cons e es =>
            have hhead := List.head?_dropWhile_not isWordChar a
            rw [hdrop] at hhead
            simpa [Flip.continues] using hhead
      have hfound : sideWord? before (c :: a) = some (c :: ds) :=
        sideWord?_eq_some_iff.mpr ⟨hbefore, hfold, a.dropWhile isWordChar,
          by rw [← hrun, List.cons_append, List.takeWhile_append_dropWhile], hafter⟩
      rw [hnone] at hfound
      cases hfound

end WordsFlipped

/-- **The words of a plain text can be flipped, and flipped again.** -/
theorem exists_wordsFlipped {text : List Char} (h : IsPlain text) (before : Option Char) :
    ∃ flipped, WordsFlipped before text flipped := by
  induction hn : text.length using Nat.strong_induction_on generalizing text before with
  | _ n ih =>
    subst hn
    cases text with
    | nil => exact ⟨[], .nil⟩
    | cons c cs =>
        cases hword : sideWord? before (c :: cs) with
        | some word =>
            obtain ⟨hbefore, hfold, rest, htext, hrest⟩ := sideWord?_eq_some_iff.mp hword
            rw [htext] at h ih ⊢
            obtain ⟨hplain, hplainrest⟩ := isPlain_append.mp h
            rw [map_foldChar_of_isPlain hplain] at hfold
            have hlength : rest.length < (word ++ rest).length := by
              rcases hfold with rfl | rfl <;> simp [left, right] <;> omega
            obtain ⟨flipped, hflipped⟩ := ih _ hlength hplainrest (some 't') rfl
            have hcontinues : continues flipped = false := hflipped.continues ▸ hrest
            rcases hfold with rfl | rfl
            · exact ⟨_, .toRight hbefore hrest hcontinues hflipped⟩
            · exact ⟨_, .toLeft hbefore hrest hcontinues hflipped⟩
        | none =>
            obtain ⟨flipped, hflipped⟩ :=
              ih cs.length (Nat.lt_succ_self _) (isPlain_cons.mp h).2 (some c) rfl
            exact ⟨c :: flipped, .keep c hword (hflipped.sideWord?_eq_none hword) hflipped⟩

/-! ## Gradients -/

/-- The head of a gradient, from its name up to the word `to`. -/
def IsHead (head : List Char) : Prop :=
  ∃ blanks, head = gradientStart ++ (blanks ++ ['t', 'o']) ∧ ∀ c ∈ blanks, isBlank c = true

/-- The direction of a gradient: letters and blanks, and a blank in front. -/
structure IsDirection (direction : List Char) : Prop where
  first : startsBlank direction = true
  all : ∀ c ∈ direction, isDirectionChar c = true

/-- A head, a direction and a comma are found. -/
lemma gradient?_append {head direction : List Char} (hhead : IsHead head)
    (hdirection : IsDirection direction) (rest : List Char) :
    gradient? (head ++ (direction ++ ',' :: rest)) = some (head, direction) := by
  obtain ⟨blanks, rfl, hblanks⟩ := hhead
  have hinside : dropWord? gradientStart
      (gradientStart ++ (blanks ++ ['t', 'o']) ++ (direction ++ ',' :: rest)) =
        some (blanks ++ ('t' :: 'o' :: (direction ++ ',' :: rest))) :=
    dropWord?_eq_some_iff.mpr ⟨gradientStart, by simp, by decide⟩
  have htrim : trimStart (blanks ++ ('t' :: 'o' :: (direction ++ ',' :: rest))) =
      't' :: 'o' :: (direction ++ ',' :: rest) := by
    rw [trimStart, List.dropWhile_append_of_pos hblanks]
    rfl
  have hto : dropWord? ['t', 'o'] ('t' :: 'o' :: (direction ++ ',' :: rest)) =
      some (direction ++ ',' :: rest) := dropWord?_eq_some_iff.mpr ⟨['t', 'o'], rfl, by decide⟩
  have hcomma : isDirectionChar ',' = false := by decide
  have htake : (direction ++ ',' :: rest).takeWhile isDirectionChar = direction := by
    rw [List.takeWhile_append_of_pos hdirection.all, List.takeWhile_cons_of_neg (by simp [hcomma]),
      List.append_nil]
  have hdrop : (direction ++ ',' :: rest).dropWhile isDirectionChar = ',' :: rest := by
    rw [List.dropWhile_append_of_pos hdirection.all, List.dropWhile_cons_of_neg (by simp [hcomma])]
  have hfirst : direction.head?.any isBlank = true := hdirection.first
  simp only [gradient?, hinside, htrim, hto, htake, hdrop, hfirst, take_length_sub,
    Option.bind_eq_bind, Option.bind_some]
  rfl

/-- In a plain text nothing else is found. -/
lemma exists_of_gradient?_of_isPlain {text head direction : List Char} (hplain : IsPlain text)
    (h : gradient? text = some (head, direction)) :
    IsHead head ∧ IsDirection direction ∧ ∃ rest, text = head ++ (direction ++ ',' :: rest) := by
  simp only [gradient?, Option.bind_eq_bind, Option.bind_eq_some_iff] at h
  obtain ⟨inside, hinside, behind, hbehind, h⟩ := h
  split_ifs at h with hends
  simp only [Option.some.injEq, Prod.mk.injEq] at h
  obtain ⟨rfl, rfl⟩ := h
  obtain ⟨start, rfl, hstart⟩ := dropWord?_eq_some_iff.mp hinside
  obtain ⟨word, hword, hfold⟩ := dropWord?_eq_some_iff.mp hbehind
  obtain ⟨hplainstart, hplaininside⟩ := isPlain_append.mp hplain
  have hsplit : inside = inside.takeWhile isBlank ++ (word ++ behind) := by
    rw [← hword, trimStart, List.takeWhile_append_dropWhile]
  rw [hsplit, isPlain_append, isPlain_append] at hplaininside
  rw [map_foldChar_of_isPlain hplainstart] at hstart
  rw [map_foldChar_of_isPlain hplaininside.2.1] at hfold
  subst hstart hfold
  have hhead : (gradientStart ++ inside).take ((gradientStart ++ inside).length - behind.length) =
      gradientStart ++ (inside.takeWhile isBlank ++ ['t', 'o']) := by
    conv_lhs => rw [hsplit]
    rw [← List.append_assoc, ← List.append_assoc, take_length_sub, List.append_assoc]
  rw [Bool.and_eq_true, beq_iff_eq] at hends
  obtain ⟨hfirst, hcomma⟩ := hends
  obtain ⟨rest, hrest⟩ := List.head?_eq_some_iff.mp hcomma
  rw [hhead]
  refine ⟨⟨_, rfl, fun c hc => List.mem_takeWhile_imp hc⟩,
    ⟨hfirst, fun c hc => List.mem_takeWhile_imp hc⟩, rest, ?_⟩
  rw [← hrest, List.takeWhile_append_dropWhile]
  conv_lhs => rw [hsplit]
  simp only [List.append_assoc]

/-- The gradients of the one text have the directions of the other with the words flipped. -/
inductive GradientsFlipped : List Char → List Char → Prop
  | nil : GradientsFlipped [] []
  | keep (c : Char) {a b : List Char} (hnone : gradient? (c :: a) = none)
      (hnone' : gradient? (c :: b) = none) (rest : GradientsFlipped a b) :
      GradientsFlipped (c :: a) (c :: b)
  | turn {head direction turned a b : List Char} (hhead : IsHead head)
      (hdirection : IsDirection direction) (hturned : IsDirection turned)
      (words : WordsFlipped none direction turned) (rest : GradientsFlipped a b) :
      GradientsFlipped (head ++ (direction ++ ',' :: a)) (head ++ (turned ++ ',' :: b))

/-- Behind what a gradient took the flip goes on. -/
lemma flipGradientsFrom_append (taken rest : List Char) :
    flipGradientsFrom taken.length (taken ++ rest) = flipGradientsFrom 0 rest := by
  induction taken with
  | nil => rfl
  | cons c cs ih =>
      rw [List.cons_append, flipGradientsFrom, if_pos (by simp), List.length_cons,
        Nat.add_sub_cancel, ih]

lemma gradient?_cons_eq_none {c : Char} (hc : foldChar c ≠ 'l') (text : List Char) :
    gradient? (c :: text) = none := by
  have hstart : dropWord? gradientStart (c :: text) = none := if_neg hc
  rw [gradient?, hstart]
  rfl

namespace GradientsFlipped

variable {a b : List Char}

lemma symm (h : GradientsFlipped a b) : GradientsFlipped b a := by
  induction h with
  | nil => exact .nil
  | keep c hnone hnone' _ ih => exact .keep c hnone' hnone ih
  | turn hhead hdirection hturned words _ ih => exact .turn hhead hturned hdirection words.symm ih

/-- **The flip of the one text is the other.** -/
theorem flip (h : GradientsFlipped a b) : flipGradientsFrom 0 a = .ok b := by
  induction h with
  | nil => rfl
  | keep c hnone _ _ ih =>
      rw [flipGradientsFrom, if_neg (Nat.lt_irrefl 0), hnone]
      exact bind_eq_ok.mpr ⟨_, ih, rfl⟩
  | @turn head direction turned a b hhead hdirection _ words _ ih =>
      have hfound := gradient?_append hhead hdirection a
      have hcomma : flipGradientsFrom 0 (',' :: a) = .ok (',' :: b) := by
        rw [flipGradientsFrom, if_neg (Nat.lt_irrefl 0), gradient?_cons_eq_none (by decide)]
        exact bind_eq_ok.mpr ⟨b, ih, rfl⟩
      obtain ⟨blanks, rfl, _⟩ := hhead
      obtain ⟨taken, htaken⟩ :
          ∃ taken, gradientStart ++ (blanks ++ ['t', 'o']) ++ direction = 'l' :: taken :=
        ⟨_, rfl⟩
      have hlength : (gradientStart ++ (blanks ++ ['t', 'o'])).length + direction.length - 1 =
          taken.length := by
        rw [← List.length_append, htaken, List.length_cons, Nat.add_sub_cancel]
      rw [← List.append_assoc, htaken, List.cons_append] at hfound ⊢
      rw [flipGradientsFrom, if_neg (Nat.lt_irrefl 0), hfound]
      refine bind_eq_ok.mpr ⟨turned, words.flip, bind_eq_ok.mpr ⟨',' :: b, ?_, ?_⟩⟩
      · rw [hlength, flipGradientsFrom_append, hcomma]
      · rw [List.append_assoc]
        rfl

/-- The characters of the flipped text are those of the text and those of the side words. -/
lemma forall_mem {p : Char → Prop} (h : GradientsFlipped a b)
    (hsides : ∀ c ∈ left ++ right, p c) (ha : ∀ c ∈ a, p c) : ∀ c ∈ b, p c := by
  induction h with
  | nil => exact ha
  | keep c _ _ _ ih =>
      obtain ⟨hc, ha⟩ := List.forall_mem_cons.mp ha
      exact List.forall_mem_cons.mpr ⟨hc, ih ha⟩
  | turn _ _ _ words _ ih =>
      simp only [List.forall_mem_append, List.forall_mem_cons] at ha ⊢
      obtain ⟨hhead, hdirection, hcomma, ha⟩ := ha
      exact ⟨hhead, words.forall_mem hsides hdirection, hcomma, ih ha⟩

/-- Marks hold no side words. -/
lemma besideMark (h : GradientsFlipped a b) : BesideMark a b := by
  induction h with
  | nil => exact .nil
  | keep c _ _ _ ih => exact .keep c ih
  | turn _ _ _ words _ ih =>
      exact (BesideMark.refl _).append (words.besideMark.append (.keep ',' ih))

/-- **What looks like the rest of a gradient in the flipped text was there before.**  It cannot reach
into the direction of another gradient, since it would hold the head of that one: `start` has no `l`
to begin the head with, and behind it come letters and blanks only, but no dash. -/
theorem exists_append (h : GradientsFlipped a b) {start behind rest : List Char}
    (hb : b = start ++ (behind ++ ',' :: rest)) (hstart : 'l' ∉ start)
    (hbehind : ∀ c ∈ behind, isDirectionChar c = true) :
    ∃ rest', a = start ++ (behind ++ ',' :: rest') := by
  induction h generalizing start behind with
  | nil => exact absurd hb (by simp)
  | @keep c a b _ _ _ ih =>
      cases start with
      | cons d ds =>
          obtain ⟨rfl, hbehind'⟩ := List.cons.inj hb
          obtain ⟨rest', rfl⟩ := ih hbehind' (fun h => hstart (List.mem_cons_of_mem _ h)) hbehind
          exact ⟨rest', rfl⟩
      | nil =>
          cases behind with
          | nil =>
              obtain ⟨rfl, _⟩ := List.cons.inj hb
              exact ⟨a, rfl⟩
          | cons d ds =>
              obtain ⟨rfl, hb'⟩ := List.cons.inj hb
              have hds := (List.forall_mem_cons.mp hbehind).2
              obtain ⟨rest', rfl⟩ := ih (List.nil_append _ ▸ hb') List.not_mem_nil hds
              exact ⟨rest', rfl⟩
  | @turn head _ turned a b hhead _ _ _ _ _ =>
      exfalso
      obtain ⟨blanks, rfl, _⟩ := hhead
      cases start with
      | cons d ds =>
          obtain ⟨rfl, _⟩ := List.cons.inj hb
          exact hstart List.mem_cons_self
      | nil =>
          -- the letters and blanks end at a comma on the one side and at a dash on the other
          have hcomma : (behind ++ ',' :: rest).dropWhile isDirectionChar = ',' :: rest := by
            rw [List.dropWhile_append_of_pos hbehind, List.dropWhile_cons_of_neg (by decide)]
          have hdash : ∀ text, (gradientStart ++ text).dropWhile isDirectionChar =
              '-' :: ("gradient(".toList ++ text) := by
            intro text
            have hstart : gradientStart = "linear".toList ++ '-' :: "gradient(".toList := by decide
            have hletters : ∀ c ∈ "linear".toList, isDirectionChar c = true :=
              List.forall_iff_forall_mem.mp (by decide)
            rw [hstart, List.append_assoc, List.dropWhile_append_of_pos hletters,
              List.cons_append, List.dropWhile_cons_of_neg (by decide)]
          rw [List.nil_append, List.append_assoc] at hb
          rw [← hb, hdash] at hcomma
          exact absurd (List.cons.inj hcomma).1 (by decide)

/-- No gradient is found in front of a flipped text that was not found before. -/
lemma gradient?_eq_none {c : Char} (h : GradientsFlipped a b) (hplain : IsPlain (c :: b))
    (hnone : gradient? (c :: a) = none) : gradient? (c :: b) = none := by
  rw [Option.eq_none_iff_forall_ne_some]
  rintro ⟨head, direction⟩ hfound
  obtain ⟨⟨blanks, rfl, hblanks⟩, hdirection, rest, htext⟩ :=
    exists_of_gradient?_of_isPlain hplain hfound
  have hstart : gradientStart = 'l' :: "inear-gradient(".toList := by decide
  have hbehind : ∀ d ∈ blanks ++ ['t', 'o'] ++ direction, isDirectionChar d = true := by
    simp only [List.forall_mem_append]
    refine ⟨⟨fun d hd => ?_, List.forall_iff_forall_mem.mp (by decide)⟩, hdirection.all⟩
    rw [isDirectionChar, hblanks d hd, Bool.or_true]
  have hsplit : c :: b = 'l' :: ("inear-gradient(".toList ++
      (blanks ++ ['t', 'o'] ++ direction ++ ',' :: rest)) := by
    rw [htext, hstart]
    simp only [List.cons_append, List.append_assoc]
  obtain ⟨rfl, hb⟩ := List.cons.inj hsplit
  obtain ⟨rest', ha⟩ := h.exists_append hb (by decide) hbehind
  have hfound' := gradient?_append ⟨blanks, rfl, hblanks⟩ hdirection rest'
  have htext' : 'l' :: a =
      gradientStart ++ (blanks ++ ['t', 'o']) ++ (direction ++ ',' :: rest') := by
    rw [ha, hstart]
    simp only [List.cons_append, List.append_assoc]
  rw [← htext', hnone] at hfound'
  cases hfound'

end GradientsFlipped

/-- **The gradients of a plain text can be flipped, and flipped again.** -/
theorem exists_gradientsFlipped {text : List Char} (h : IsPlain text) :
    ∃ flipped, GradientsFlipped text flipped := by
  induction hn : text.length using Nat.strong_induction_on generalizing text with
  | _ n ih =>
    subst hn
    cases text with
    | nil => exact ⟨[], .nil⟩
    | cons c cs =>
        cases hgradient : gradient? (c :: cs) with
        | some found =>
            obtain ⟨head, direction⟩ := found
            obtain ⟨hhead, hdirection, rest, htext⟩ := exists_of_gradient?_of_isPlain h hgradient
            rw [htext] at h ih ⊢
            simp only [isPlain_append, isPlain_cons] at h
            obtain ⟨_, hplain, _, hrest⟩ := h
            have hlength : rest.length < (head ++ (direction ++ ',' :: rest)).length := by
              simp
              omega
            obtain ⟨turned, hwords⟩ := exists_wordsFlipped hplain none
            obtain ⟨flipped, hflipped⟩ := ih _ hlength hrest rfl
            have hturned : IsDirection turned :=
              ⟨hwords.startsBlank ▸ hdirection.first,
                hwords.forall_mem (List.forall_iff_forall_mem.mp (by decide)) hdirection.all⟩
            exact ⟨_, .turn hhead hdirection hturned hwords hflipped⟩
        | none =>
            obtain ⟨flipped, hflipped⟩ :=
              ih cs.length (Nat.lt_succ_self _) (isPlain_cons.mp h).2 rfl
            have hplain : IsPlain (c :: flipped) :=
              isPlain_cons.mpr ⟨(isPlain_cons.mp h).1,
                hflipped.forall_mem (List.forall_iff_forall_mem.mp (by decide))
                  (isPlain_cons.mp h).2⟩
            exact ⟨c :: flipped, .keep c hgradient (hflipped.gradient?_eq_none hplain hgradient)
              hflipped⟩

end AtomicStyle.Flip
