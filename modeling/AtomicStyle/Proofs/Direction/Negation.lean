import AtomicStyle.Proofs.Css.BesideMark
import AtomicStyle.Proofs.Css.Joining
import AtomicStyle.Proofs.Direction.Exchange
import AtomicStyle.Proofs.Direction.Respacing
import AtomicStyle.Proofs.Property.Line

/-!
# Offsets negated and negated again

The flip of a shadow list cuts it at commas, and each shadow at spaces.  It finds the horizontal
offset among the components by its place, puts a dash in front of it or takes one away, and joins
what it has.  A second flip has to make the same cuts in the result.

**Offsets.**  `Negated` says of two components that one has a dash in front of a number and the
other has none.  They are lengths alike (`Negated.isOffset_eq`), so the second flip finds the offset
where the first one found it (`ShadowFlipped.flip`).

**Cuts.**  Where a text is cut depends on its quotes, parentheses and separators only
(`whole_filter`, `after_filter`).  A dash is none of them, nor is a space where the cut is made at
commas.

**Lists.**  So the second flip gives back the components of the text, joined
(`flipShadows_flipShadows`).
-/

namespace AtomicStyle

open Css Text

/-! ## What a cut depends on -/

namespace Css

/-- Whether cutting a text at the separators takes notice of the character. -/
def isNoticed (separators : List Char) (c : Char) : Bool :=
  c == '"' || c == '\'' || c == '(' || c == ')' || separators.contains c

/-- Only quotation marks are open as a quote. -/
def Nesting.IsQuoted (n : Nesting) : Prop :=
  ∀ q, n.quote = some q → q = '"' ∨ q = '\''

lemma Nesting.isQuoted_start : Nesting.IsQuoted {} := fun q hq => by simp at hq

lemma Nesting.IsQuoted.next {n : Nesting} (h : n.IsQuoted) (c : Char) : (n.next c).IsQuoted := by
  intro q hq
  unfold Nesting.next at hq
  split at hq
  case h_1 p hp =>
      split_ifs at hq
      exact h q hq
  case h_2 hnone =>
      split_ifs at hq with hc
      · obtain rfl := Option.some.inj hq
        simpa using hc
      · exact h q hq
      · exact h q hq
      · exact h q hq

section

variable {separators : List Char} {n : Nesting} {c : Char}

/-- A character without notice opens nothing, closes nothing and does not separate. -/
lemma Nesting.IsQuoted.next_of_not_isNoticed (h : n.IsQuoted)
    (hc : isNoticed separators c = false) :
    n.next c = n ∧ n.separates separators c = false := by
  simp only [isNoticed, Bool.or_eq_false_iff, beq_eq_false_iff_ne] at hc
  obtain ⟨⟨⟨⟨hdouble, hsingle⟩, hopen⟩, hclose⟩, hseparators⟩ := hc
  refine ⟨?_, by simp only [separates, hseparators, Bool.and_false, Bool.false_and]⟩
  unfold Nesting.next
  split
  case h_1 q hq =>
      refine if_neg fun heq => ?_
      rcases h q hq with rfl | rfl
      · exact hdouble heq
      · exact hsingle heq
  case h_2 => simp [hdouble, hsingle, hopen, hclose]

lemma after_filter (separators : List Char) (h : n.IsQuoted) (text : List Char) :
    n.after (text.filter (isNoticed separators)) = n.after text := by
  induction text generalizing n with
  | nil => rfl
  | cons c cs ih =>
      rw [List.filter_cons, Nesting.after_cons]
      split_ifs with hc
      · rw [Nesting.after_cons, ih (h.next c)]
      · rw [(h.next_of_not_isNoticed (Bool.not_eq_true _ ▸ hc)).1, ih h]

lemma whole_filter (h : n.IsQuoted) (text : List Char) :
    Whole separators n (text.filter (isNoticed separators)) ↔ Whole separators n text := by
  induction text generalizing n with
  | nil => exact Iff.rfl
  | cons c cs ih =>
      rw [List.filter_cons, whole_cons]
      split_ifs with hc
      · rw [whole_cons, ih (h.next c)]
      · obtain ⟨hnext, hseparates⟩ := h.next_of_not_isNoticed (Bool.not_eq_true _ ▸ hc)
        rw [hnext, hseparates, ih h]
        simp

/-- Texts with the same noticed characters are cut alike. -/
lemma whole_and_balanced_of_filter_eq {a b : List Char}
    (h : a.filter (isNoticed separators) = b.filter (isNoticed separators)) :
    (Whole separators {} a → Whole separators {} b) ∧ (Balanced a → Balanced b) := by
  have hstart := Nesting.isQuoted_start
  rw [← whole_filter hstart a, h, whole_filter hstart b, Balanced, Balanced,
    ← after_filter separators hstart a, h, after_filter separators hstart b]
  exact ⟨id, id⟩

end

end Css

namespace Flip

/-! ## Offsets -/

/-- The characters at which the digits of a number of ASCII begin. -/
def numberStarts : List Char :=
  "0123456789.".toList

/-- One component has a dash in front of a number, and the other has none. -/
inductive Negated : List Char → List Char → Prop
  | toNegative {d : Char} (hd : d ∈ numberStarts) (ds : List Char) :
      Negated (d :: ds) ('-' :: d :: ds)
  | toPositive {d : Char} (hd : d ∈ numberStarts) (ds : List Char) :
      Negated ('-' :: d :: ds) (d :: ds)

lemma Negated.symm {p q : List Char} (h : Negated p q) : Negated q p := by
  cases h with
  | toNegative hd ds => exact .toPositive hd ds
  | toPositive hd ds => exact .toNegative hd ds

lemma readSign_cons {d : Char} (hd : d ∈ numberStarts) (ds : List Char) :
    readSign (d :: ds) = (false, d :: ds) := by
  have hsign : ∀ d ∈ numberStarts, d ≠ '-' ∧ d ≠ '+' :=
    List.forall_iff_forall_mem.mp (by decide)
  obtain ⟨hminus, hplus⟩ := hsign d hd
  unfold readSign
  split
  case h_1 _ heq => exact absurd (List.cons.inj heq).1 hminus
  case h_2 _ heq => exact absurd (List.cons.inj heq).1 hplus
  case h_3 => rfl

/-- Both components go on alike behind their signs. -/
lemma Negated.readSign_eq {p q : List Char} (h : Negated p q) :
    (readSign q).2 = (readSign p).2 := by
  cases h with
  | toNegative hd ds => rw [readSign_cons hd]; rfl
  | toPositive hd ds => rw [readSign_cons hd]; rfl

lemma isZero_of_readSign_eq {p q : List Char} (h : (readSign q).2 = (readSign p).2) :
    isZero q = isZero p := by
  rw [isZero, isZero, h]

lemma isDimension_of_readSign_eq {p q : List Char} (h : (readSign q).2 = (readSign p).2) :
    isDimension q = isDimension p := by
  have hread : ∀ text : List Char, isDimension text =
      (Decimal.readUnsigned? (readSign text).2).any fun found =>
        isOneOfWords dimensionUnits (dropExponent found.2) := by
    intro text
    rw [isDimension, Decimal.read?]
    rcases readSign text with ⟨negative, rest⟩
    dsimp only
    cases Decimal.readUnsigned? rest <;> rfl
  rw [hread, hread, h]

lemma Negated.isZero_eq {p q : List Char} (h : Negated p q) : isZero q = isZero p :=
  isZero_of_readSign_eq h.readSign_eq

lemma Negated.isOffset_eq {p q : List Char} (h : Negated p q) : isOffset q = isOffset p := by
  rw [isOffset, isOffset, h.isZero_eq, isDimension_of_readSign_eq h.readSign_eq]

lemma Negated.negate_eq {p q : List Char} (h : Negated p q) (hzero : isZero p = false) :
    negate p = q := by
  have hsign : ∀ d ∈ numberStarts, d ≠ '-' ∧ (d == '+') = false :=
    List.forall_iff_forall_mem.mp (by decide)
  unfold negate
  rw [hzero, if_neg Bool.false_ne_true]
  cases h with
  | toPositive hd ds => rfl
  | @toNegative d hd ds =>
      obtain ⟨hminus, hplus⟩ := hsign d hd
      split
      case h_1 _ heq => exact absurd (List.cons.inj heq).1 hminus
      case h_2 => rw [List.dropWhile_cons_of_neg (by simp [hplus])]

/-- A decimal begins with a digit or with its point. -/
lemma exists_of_readUnsigned? {text rest : List Char} {d : Decimal}
    (h : Decimal.readUnsigned? text = some (d, rest)) :
    ∃ c cs, text = c :: cs ∧ (isDigit c = true ∨ c = '.') := by
  cases text with
  | nil => cases h
  | cons c cs =>
      refine ⟨c, cs, rfl, or_iff_not_imp_left.mpr fun hdigit => ?_⟩
      rw [Decimal.readUnsigned?, readDigits_of_not_isDigit (Bool.not_eq_true _ ▸ hdigit)] at h
      by_contra hpoint
      simp [hpoint] at h

/-- **A length of ASCII without a plus is zero or can be negated.** -/
theorem exists_negated {p : List Char} (hplain : IsPlain p) (hoffset : isOffset p = true)
    (hplus : p.head? ≠ some '+') (hzero : isZero p = false) : ∃ q, Negated p q := by
  have hstart : ∀ c : Char, c.toNat < 0x80 → (isDigit c = true ∨ c = '.') → c ∈ numberStarts :=
    forall_ascii (by decide +kernel)
  have hdimension : isDimension p = true := by
    rwa [isOffset, hzero, Bool.or_false] at hoffset
  have hread : ∃ c cs, (readSign p).2 = c :: cs ∧ (isDigit c = true ∨ c = '.') := by
    rw [isDimension, Decimal.read?] at hdimension
    cases hunsigned : Decimal.readUnsigned? (readSign p).2 with
    | none =>
        dsimp only at hdimension
        rw [hunsigned] at hdimension
        cases hdimension
    | some found => exact exists_of_readUnsigned? hunsigned
  obtain ⟨c, cs, hp, hc⟩ := hread
  unfold readSign at hp
  split at hp
  case h_1 cs' =>
      obtain rfl : cs' = c :: cs := hp
      exact ⟨_, .toPositive (hstart c (hplain c (by simp)).1 hc) cs⟩
  case h_2 => exact absurd rfl hplus
  case h_3 =>
      subst hp
      exact ⟨_, .toNegative (hstart c (hplain c (by simp)).1 hc) cs⟩

/-! ## Shadows -/

/-- The first length of the one shadow is the first of the other, negated; no other component
differs. -/
inductive FirstNegated : List (List Char) → List (List Char) → Prop
  | here {p q : List Char} (hoffset : isOffset p = true) (hzero : isZero p = false)
      (negated : Negated p q) (ps : List (List Char)) : FirstNegated (p :: ps) (q :: ps)
  | later {p : List Char} (hoffset : isOffset p = false) {ps qs : List (List Char)}
      (rest : FirstNegated ps qs) : FirstNegated (p :: ps) (p :: qs)

namespace FirstNegated

variable {ps qs : List (List Char)}

lemma symm (h : FirstNegated ps qs) : FirstNegated qs ps := by
  induction h with
  | here hoffset hzero negated ps =>
      exact .here (negated.isOffset_eq.trans hoffset) (negated.isZero_eq.trans hzero)
        negated.symm ps
  | later hoffset _ ih => exact .later hoffset ih

lemma negateFirst_eq (h : FirstNegated ps qs) : negateFirst ps = qs := by
  induction h with
  | here hoffset hzero negated ps => rw [negateFirst, if_pos hoffset, negated.negate_eq hzero]
  | later hoffset _ ih => rw [negateFirst, if_neg (by simp [hoffset]), ih]

lemma countP_eq (h : FirstNegated ps qs) : qs.countP isOffset = ps.countP isOffset := by
  induction h with
  | here _ _ negated ps => rw [List.countP_cons, List.countP_cons, negated.isOffset_eq]
  | later _ _ ih => rw [List.countP_cons, List.countP_cons, ih]

lemma forall₂ (h : FirstNegated ps qs) : List.Forall₂ (fun p q => p = q ∨ Negated p q) ps qs := by
  induction h with
  | here _ _ negated ps =>
      exact .cons (.inr negated) (List.forall₂_same.mpr fun _ _ => .inl rfl)
  | later _ _ ih => exact .cons (.inl rfl) ih

end FirstNegated

/-- Each of the two shadows is the flip of the other. -/
inductive ShadowFlipped : List (List Char) → List (List Char) → Prop
  | undirected {ps : List (List Char)} (h : IsUndirected ps) : ShadowFlipped ps ps
  | directed {ps qs : List (List Char)} (hcount : 2 ≤ ps.countP isOffset)
      (h : FirstNegated ps qs) : ShadowFlipped ps qs

namespace ShadowFlipped

variable {ps qs : List (List Char)}

lemma symm (h : ShadowFlipped ps qs) : ShadowFlipped qs ps := by
  cases h with
  | undirected h => exact .undirected h
  | directed hcount h => exact .directed (h.countP_eq ▸ hcount) h.symm

/-- **The flip of the one shadow is the other.** -/
theorem flip (h : ShadowFlipped ps qs) : flipShadow ps = qs := by
  cases h with
  | undirected h => exact flipShadow_eq_self_iff.mpr h
  | directed hcount h => rw [flipShadow, if_pos hcount, h.negateFirst_eq]

lemma forall₂ (h : ShadowFlipped ps qs) : List.Forall₂ (fun p q => p = q ∨ Negated p q) ps qs := by
  cases h with
  | undirected _ => exact List.forall₂_same.mpr fun _ _ => .inl rfl
  | directed _ h => exact h.forall₂

end ShadowFlipped

/-- The first length of a plain shadow can be negated if it is not zero and has no plus in front. -/
lemma exists_firstNegated {ps : List (List Char)} (hplain : ∀ p ∈ ps, IsPlain p)
    (hplus : ∀ p ∈ ps, p.head? ≠ some '+') (hsome : 0 < ps.countP isOffset)
    (hzero : ∀ p ∈ ps.find? isOffset, isZero p = false) : ∃ qs, FirstNegated ps qs := by
  induction ps with
  | nil => exact absurd hsome (by simp)
  | cons p ps ih =>
      obtain ⟨hp, hps⟩ := List.forall_mem_cons.mp hplain
      obtain ⟨hpplus, hpsplus⟩ := List.forall_mem_cons.mp hplus
      rw [List.find?_cons] at hzero
      rw [List.countP_cons] at hsome
      cases hoffset : isOffset p with
      | true =>
          rw [hoffset] at hzero
          have hnot : isZero p = false := hzero p rfl
          obtain ⟨q, hq⟩ := exists_negated hp hoffset hpplus hnot
          exact ⟨q :: ps, .here hoffset hnot hq ps⟩
      | false =>
          rw [hoffset] at hzero hsome
          obtain ⟨qs, hqs⟩ := ih hps hpsplus hsome hzero
          exact ⟨p :: qs, .later hoffset hqs⟩

/-- **A plain shadow without a plus in front of its components can be flipped, and flipped
again.** -/
theorem exists_shadowFlipped {ps : List (List Char)} (hplain : ∀ p ∈ ps, IsPlain p)
    (hplus : ∀ p ∈ ps, p.head? ≠ some '+') : ∃ qs, ShadowFlipped ps qs := by
  by_cases hundirected : IsUndirected ps
  · exact ⟨ps, .undirected hundirected⟩
  · obtain ⟨hcount, hzero⟩ := not_or.mp hundirected
    have hcount : 2 ≤ ps.countP isOffset := Nat.le_of_not_lt hcount
    obtain ⟨qs, hqs⟩ := exists_firstNegated hplain hplus (Nat.lt_of_lt_of_le Nat.two_pos hcount)
      fun p hp => Bool.eq_false_iff.mpr fun h => hzero ⟨p, hp, h⟩
    exact ⟨qs, .directed hcount hqs⟩

/-! ## Lists -/

section

variable {p q : List Char}

/-- A dash goes without notice. -/
lemma Negated.filter_eq {separators : List Char} (hdash : isNoticed separators '-' = false)
    (h : Negated p q) :
    p.filter (isNoticed separators) = q.filter (isNoticed separators) := by
  cases h with
  | toNegative hd ds => simp [List.filter_cons, hdash]
  | toPositive hd ds => simp [List.filter_cons, hdash]

/-- A number has no blanks in front, with a dash or without. -/
lemma Negated.solid (h : Negated p q) (hp : Solid p) : Solid q := by
  have hstart : ∀ d ∈ numberStarts, isBlank d = false :=
    List.forall_iff_forall_mem.mp (by decide)
  have hend := hp.endsBlank
  cases h with
  | @toNegative d hd ds =>
      refine ⟨List.cons_ne_nil _ _, trim_eq_self rfl ?_⟩
      exact (endsBlank_append (List.cons_ne_nil d ds) ['-']).trans hend
  | @toPositive d hd ds =>
      refine ⟨List.cons_ne_nil _ _, trim_eq_self (hstart d hd) ?_⟩
      exact (endsBlank_append (List.cons_ne_nil d ds) ['-']).symm.trans hend

/-- Marks hold no numbers. -/
lemma Negated.besideMark (h : Negated p q) : BesideMark p q := by
  have hforeign : ∀ d ∈ numberStarts, IsForeign [d] ∧ IsForeign ['-', d] :=
    List.forall_iff_forall_mem.mp (by decide)
  cases h with
  | @toNegative d hd ds => exact .exchange (hforeign d hd).1 (hforeign d hd).2 (.refl ds)
  | @toPositive d hd ds => exact .exchange (hforeign d hd).2 (hforeign d hd).1 (.refl ds)

end

/-- Joining keeps marks out of what was changed. -/
lemma besideMark_joinWith {separator : Char} {ps qs : List (List Char)}
    (h : List.Forall₂ BesideMark ps qs) :
    BesideMark (joinWith separator ps) (joinWith separator qs) := by
  have hflat : ∀ {ps qs : List (List Char)}, List.Forall₂ BesideMark ps qs →
      BesideMark (ps.flatMap (separator :: ·)) (qs.flatMap (separator :: ·)) := by
    intro ps qs h
    induction h with
    | nil => exact .nil
    | cons hp _ ih => exact (BesideMark.keep separator hp).append ih
  cases h with
  | nil => exact .nil
  | cons hp hps =>
      rw [joinWith_cons, joinWith_cons]
      exact hp.append (hflat hps)

namespace ShadowFlipped

/-- **A flipped shadow has the flipped components.** -/
theorem components_joinWith {shadow : List Char} {qs : List (List Char)}
    (h : ShadowFlipped (components [' '] shadow) qs) :
    (∀ q ∈ qs, Solid q) ∧ components [' '] (joinWith ' ' qs) = qs := by
  have hsolid : ∀ q ∈ qs, Solid q := by
    intro q hq
    obtain ⟨p, hp, hpq⟩ := exists_of_mem_forall₂ h.forall₂ hq
    have hpsolid := solid_of_mem_components hp
    rcases hpq with rfl | hpq
    · exact hpsolid
    · exact hpq.solid hpsolid
  have hjoinable : Joinable [' '] qs := by
    refine (joinable_components shadow).of_forall₂ (h.forall₂.imp fun p q hpq => ?_)
    rcases hpq with rfl | hpq
    · exact ⟨id, id⟩
    · exact whole_and_balanced_of_filter_eq (hpq.filter_eq (by decide))
  exact ⟨hsolid, Css.components_joinWith (by decide) hjoinable hsolid⟩

/-- At commas a flipped shadow is cut like the shadow. -/
lemma filter_joinWith {shadow : List Char} {qs : List (List Char)}
    (h : ShadowFlipped (components [' '] shadow) qs) :
    (joinWith ' ' qs).filter (isNoticed [',']) = shadow.filter (isNoticed [',']) := by
  have hblank : ∀ c, isBlank c = true → isNoticed [','] c = false := by
    have hall : ∀ c ∈ blanks, isNoticed [','] c = false :=
      List.forall_iff_forall_mem.mp (by decide)
    exact fun c hc => hall c (mem_blanks.mpr hc)
  have hflat : ∀ {ps qs : List (List Char)},
      List.Forall₂ (fun p q => p = q ∨ Negated p q) ps qs →
        qs.flatMap (List.filter (isNoticed [','])) =
          ps.flatMap (List.filter (isNoticed [','])) := by
    intro ps qs h
    induction h with
    | nil => rfl
    | @cons p q ps qs hpq _ ih =>
        have hsame : p.filter (isNoticed [',']) = q.filter (isNoticed [',']) := by
          rcases hpq with rfl | hpq
          · rfl
          · exact hpq.filter_eq (by decide)
        rw [List.flatMap_cons, List.flatMap_cons, ih, hsame]
  have hspace : ∀ c ∈ [' '], isNoticed [','] c = false := List.forall_mem_singleton.mpr (by decide)
  rw [Css.filter_joinWith (by decide), hflat h.forall₂, filter_components hblank hspace]

lemma besideMark {ps qs : List (List Char)} (h : ShadowFlipped ps qs) :
    BesideMark (joinWith ' ' ps) (joinWith ' ' qs) := by
  refine besideMark_joinWith (h.forall₂.imp fun p q hpq => ?_)
  rcases hpq with rfl | hpq
  · exact .refl p
  · exact hpq.besideMark

end ShadowFlipped

/-- No component of a shadow begins with a plus. -/
def HasNoPlus (text : List Char) : Prop :=
  ∀ shadow ∈ components [','] text, ∀ part ∈ components [' '] shadow, part.head? ≠ some '+'

instance (text : List Char) : Decidable (HasNoPlus text) :=
  inferInstanceAs (Decidable (∀ _ ∈ _, ∀ _ ∈ _, _))

/-- Each shadow of a plain list can be flipped, and flipped again. -/
lemma shadowFlipped_of_mem {text : List Char} (hplain : IsPlain text) (hplus : HasNoPlus text)
    {shadow : List Char} (hshadow : shadow ∈ components [','] text) :
    ShadowFlipped (components [' '] shadow) (flipShadow (components [' '] shadow)) := by
  have hparts : ∀ part ∈ components [' '] shadow, IsPlain part := fun part hpart c hc =>
    hplain c (Property.subset_of_mem_components hshadow
      (Property.subset_of_mem_components hpart hc))
  obtain ⟨qs, hqs⟩ := exists_shadowFlipped hparts (hplus shadow hshadow)
  rwa [hqs.flip]

/-- **The shadows of a flipped list are the flipped shadows.** -/
theorem components_flipShadows {text : List Char} (hplain : IsPlain text)
    (hplus : HasNoPlus text) :
    components [','] (flipShadows text) = (components [','] text).map fun shadow =>
      joinWith ' ' (flipShadow (components [' '] shadow)) := by
  have hjoinable : Joinable [','] ((components [','] text).map fun shadow =>
      joinWith ' ' (flipShadow (components [' '] shadow))) := by
    refine (joinable_components text).map fun shadow hshadow => ?_
    exact whole_and_balanced_of_filter_eq
      (shadowFlipped_of_mem hplain hplus hshadow).filter_joinWith.symm
  refine components_joinWith (by decide) hjoinable ?_
  refine List.forall_mem_map.mpr fun shadow hshadow => ?_
  have hflipped := shadowFlipped_of_mem hplain hplus hshadow
  have hsolid := solid_of_mem_components hshadow
  have hne : components [' '] shadow ≠ [] := fun hnil =>
    hsolid.ne_nil (eq_nil_of_components_eq_nil hsolid.endsBlank hnil)
  have hne' : flipShadow (components [' '] shadow) ≠ [] := by
    rw [← List.length_pos_iff, ← hflipped.forall₂.length_eq]
    exact List.length_pos_iff.mpr hne
  exact solid_joinWith hne' hflipped.components_joinWith.1

/-- **Flipping a plain list twice respaces it**, and no mark is reached by the flip. -/
theorem flipShadows_flipShadows {text : List Char} (hplain : IsPlain text)
    (hplus : HasNoPlus text) :
    flipShadows (flipShadows text) = respace text ∧
      BesideMark (respace text) (flipShadows text) := by
  constructor
  · rw [flipShadows, components_flipShadows hplain hplus, List.map_map, respace]
    refine congrArg (joinWith ',') (List.map_congr_left fun shadow hshadow => ?_)
    have hflipped := shadowFlipped_of_mem hplain hplus hshadow
    rw [Function.comp_apply, hflipped.components_joinWith.2, hflipped.symm.flip]
  · refine besideMark_joinWith ?_
    rw [List.forall₂_map_left_iff, List.forall₂_map_right_iff, List.forall₂_same]
    exact fun shadow hshadow => (shadowFlipped_of_mem hplain hplus hshadow).besideMark

end Flip

end AtomicStyle
