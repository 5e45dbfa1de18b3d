import AtomicStyle.Proofs.Css.ComponentCount
import Mathlib.Data.List.Forall2

/-!
# Cutting what was joined

A value is taken apart at its top-level separators, changed, and joined again.  When the result is
taken apart once more, are the parts found?

**What is open behind a text.**  `Nesting.after` runs the small state of the splitter over a text.
A text is *whole* when no separator cuts it (`Whole`), and *balanced* when it leaves nothing open
(`Balanced`).  Both can be read off the parts of a text (`whole_append`, `Nesting.after_append`).

**Joining.**  Texts can be told apart behind a separator if each is whole and all but the last are
balanced (`Joinable`): they are the pieces of what they join to (`pieces_joinWith`).

**Components.**  The components of a text are such texts, and have no blanks around them (`Solid`).
So joining them with any separator and cutting again gives them back (`components_components`).
-/

namespace AtomicStyle.Css

open Text

/-! ## What is open behind a text -/

/-- What is open behind a text. -/
def Nesting.after (n : Nesting) (text : List Char) : Nesting :=
  text.foldl Nesting.next n

@[simp] lemma Nesting.after_nil (n : Nesting) : n.after [] = n := rfl

@[simp] lemma Nesting.after_cons (n : Nesting) (c : Char) (cs : List Char) :
    n.after (c :: cs) = (n.next c).after cs := rfl

@[simp] lemma Nesting.after_append (n : Nesting) (a b : List Char) :
    n.after (a ++ b) = (n.after a).after b :=
  List.foldl_append

lemma Nesting.InkQuoted.after {n : Nesting} (h : n.InkQuoted) (text : List Char) :
    (n.after text).InkQuoted := by
  induction text generalizing n with
  | nil => exact h
  | cons c cs ih => exact ih (h.next c)

/-- Blanks open nothing and close nothing. -/
lemma Nesting.InkQuoted.after_of_forall {n : Nesting} (h : n.InkQuoted) {text : List Char}
    (hblank : ∀ c ∈ text, isBlank c = true) : n.after text = n := by
  induction text with
  | nil => rfl
  | cons c cs ih =>
      obtain ⟨hc, hcs⟩ := List.forall_mem_cons.mp hblank
      rw [Nesting.after_cons, h.next_of_isBlank hc, ih hcs]

/-- A separator is met only where nothing is open. -/
lemma Nesting.eq_of_separates {n : Nesting} {separators : List Char} {c : Char}
    (h : n.separates separators c = true) : n = {} := by
  obtain ⟨depth, quote⟩ := n
  simp only [separates, Bool.and_eq_true, Option.isNone_iff_eq_none, beq_iff_eq] at h
  obtain ⟨⟨⟨rfl, rfl⟩, _⟩, _⟩ := h
  rfl

/-- A separator opens nothing. -/
lemma Nesting.next_of_separates {separators : List Char} {c : Char}
    (h : Nesting.separates {} separators c = true) : Nesting.next {} c = {} := by
  simp only [separates, Bool.and_eq_true, Bool.not_eq_true', Bool.or_eq_false_iff,
    beq_eq_false_iff_ne] at h
  obtain ⟨_, ⟨⟨hdouble, hsingle⟩, hopen⟩, hclose⟩ := h
  simp [next, hdouble, hsingle, hopen, hclose]

/-- No separator cuts the text, when `n` is open in front of it. -/
def Whole (separators : List Char) (n : Nesting) (text : List Char) : Prop :=
  pieces separators n text = [text]

/-- The text leaves nothing open. -/
def Balanced (text : List Char) : Prop :=
  Nesting.after {} text = {}

instance (separators : List Char) (n : Nesting) (text : List Char) :
    Decidable (Whole separators n text) :=
  inferInstanceAs (Decidable (pieces separators n text = [text]))

instance (text : List Char) : Decidable (Balanced text) :=
  inferInstanceAs (Decidable (Nesting.after {} text = {}))

section

variable {separators : List Char}

@[simp] lemma whole_nil (n : Nesting) : Whole separators n [] := rfl

lemma consFirst_eq_singleton {c : Char} {text : List Char} {ps : List (List Char)} (h : ps ≠ []) :
    consFirst c ps = [c :: text] ↔ ps = [text] := by
  cases ps with
  | nil => exact absurd rfl h
  | cons p ps => simp [consFirst]

/-- A text is whole if its first character does not separate and the rest is whole. -/
lemma whole_cons {n : Nesting} {c : Char} {cs : List Char} :
    Whole separators n (c :: cs) ↔
      n.separates separators c = false ∧ Whole separators (n.next c) cs := by
  rw [Whole, pieces, Whole]
  cases n.separates separators c with
  | true => simp
  | false => simp [consFirst_eq_singleton (pieces_ne_nil _ _ _)]

theorem whole_append {n : Nesting} {a b : List Char} :
    Whole separators n (a ++ b) ↔ Whole separators n a ∧ Whole separators (n.after a) b := by
  induction a generalizing n with
  | nil => simp
  | cons c cs ih => rw [List.cons_append, whole_cons, whole_cons, ih, Nesting.after_cons, and_assoc]

/-- A separator behind a text ends its last piece, and the pieces of the rest follow. -/
lemma pieces_append_cons {n : Nesting} {a : List Char} {c : Char}
    (hc : (n.after a).separates separators c = true) (b : List Char) :
    pieces separators n (a ++ c :: b) = pieces separators n a ++ pieces separators {} b := by
  induction a generalizing n with
  | nil =>
      rw [Nesting.after_nil] at hc
      obtain rfl : n = {} := Nesting.eq_of_separates hc
      rw [List.nil_append, pieces.eq_2, if_pos hc]
      rfl
  | cons d ds ih =>
      rw [List.cons_append, pieces, pieces]
      split_ifs with hd
      · obtain rfl : n = {} := Nesting.eq_of_separates hd
        have hnext : Nesting.next {} d = {} := Nesting.next_of_separates hd
        rw [Nesting.after_cons, hnext] at hc
        rw [ih hc, List.cons_append]
      · rw [ih hc]
        cases hp : pieces separators (n.next d) ds with
        | nil => exact absurd hp (pieces_ne_nil _ _ _)
        | cons p ps => rfl

/-! ## Joining -/

/-- Texts that can be told apart behind a separator: each is whole, and all but the last are
balanced. -/
inductive Joinable (separators : List Char) : List (List Char) → Prop
  | nil : Joinable separators []
  | last {p : List Char} (whole : Whole separators {} p) : Joinable separators [p]
  | cons {p : List Char} {ps : List (List Char)} (whole : Whole separators {} p)
      (balanced : Balanced p) (rest : Joinable separators ps) : Joinable separators (p :: ps)

/-- The pieces of a text can be told apart; the first one is read with what is open in front of
the text. -/
lemma joinable_pieces_tail (separators : List Char) (n : Nesting) (text : List Char) :
    ∃ p ps, pieces separators n text = p :: ps ∧ Whole separators n p ∧
      (ps ≠ [] → n.after p = {}) ∧ Joinable separators ps := by
  induction text generalizing n with
  | nil => exact ⟨[], [], rfl, whole_nil n, fun h => absurd rfl h, .nil⟩
  | cons c cs ih =>
      cases hc : n.separates separators c with
      | true =>
          obtain rfl : n = {} := Nesting.eq_of_separates hc
          obtain ⟨p, ps, hps, hp, hbalanced, hrest⟩ := ih {}
          refine ⟨[], p :: ps, by rw [pieces, if_pos hc, hps], whole_nil _, fun _ => rfl, ?_⟩
          cases ps with
          | nil => exact .last hp
          | cons q qs => exact .cons hp (hbalanced (List.cons_ne_nil q qs)) hrest
      | false =>
          obtain ⟨p, ps, hps, hp, hbalanced, hrest⟩ := ih (n.next c)
          refine ⟨c :: p, ps, ?_, whole_cons.mpr ⟨hc, hp⟩, hbalanced, hrest⟩
          rw [pieces, hc, if_neg Bool.false_ne_true, hps, consFirst]

/-- **The pieces of a text can be told apart.** -/
theorem joinable_pieces (text : List Char) : Joinable separators (pieces separators {} text) := by
  obtain ⟨p, ps, hps, hp, hbalanced, hrest⟩ := joinable_pieces_tail separators {} text
  rw [hps]
  cases ps with
  | nil => exact .last hp
  | cons q qs => exact .cons hp (hbalanced (List.cons_ne_nil q qs)) hrest

/-- Leaving texts out keeps the others apart. -/
lemma Joinable.filter {ts : List (List Char)} (h : Joinable separators ts)
    (p : List Char → Bool) : Joinable separators (ts.filter p) := by
  induction h with
  | nil => exact .nil
  | last ht =>
      rw [List.filter_cons]
      split_ifs
      · exact .last ht
      · exact .nil
  | cons ht hbalanced _ ih =>
      rw [List.filter_cons]
      split_ifs
      · exact .cons ht hbalanced ih
      · exact ih

/-- Texts that are whole and balanced where others are can be told apart like them. -/
lemma Joinable.of_forall₂ {ts us : List (List Char)} (h : Joinable separators ts)
    (hrel : List.Forall₂ (fun t u => (Whole separators {} t → Whole separators {} u) ∧
      (Balanced t → Balanced u)) ts us) : Joinable separators us := by
  induction h generalizing us with
  | nil =>
      obtain rfl := List.forall₂_nil_left_iff.mp hrel
      exact .nil
  | last ht =>
      obtain ⟨u, us, hu, hus, rfl⟩ := List.forall₂_cons_left_iff.mp hrel
      obtain rfl := List.forall₂_nil_left_iff.mp hus
      exact .last (hu.1 ht)
  | cons ht hbalanced _ ih =>
      obtain ⟨u, us, hu, hus, rfl⟩ := List.forall₂_cons_left_iff.mp hrel
      exact .cons (hu.1 ht) (hu.2 hbalanced) (ih hus)

/-- What keeps texts whole and balanced keeps them apart. -/
lemma Joinable.map {ts : List (List Char)} (h : Joinable separators ts)
    {f : List Char → List Char}
    (hf : ∀ t ∈ ts, (Whole separators {} t → Whole separators {} (f t)) ∧
      (Balanced t → Balanced (f t))) : Joinable separators (ts.map f) :=
  h.of_forall₂ (List.forall₂_map_right_iff.mpr (List.forall₂_same.mpr hf))

variable {separator : Char}

lemma joinWith_cons_cons (p q : List Char) (ps : List (List Char)) :
    joinWith separator (p :: q :: ps) = p ++ separator :: joinWith separator (q :: ps) := by
  rw [joinWith_cons, joinWith_cons, List.flatMap_cons, List.cons_append]

lemma length_joinWith {texts : List (List Char)} (h : texts ≠ []) :
    (joinWith separator texts).length + 1 = texts.flatten.length + texts.length := by
  induction texts with
  | nil => exact absurd rfl h
  | cons t ts ih =>
      cases ts with
      | nil => simp [joinWith_cons]
      | cons u us =>
          have hus := ih (List.cons_ne_nil u us)
          rw [joinWith_cons_cons, List.flatten_cons, List.length_append, List.length_append,
            List.length_cons, List.length_cons]
          omega

/-- **Texts that can be told apart are the pieces of what they join to.** -/
theorem pieces_joinWith (hsep : Nesting.separates {} separators separator = true)
    {ts : List (List Char)} (h : Joinable separators ts) (hne : ts ≠ []) :
    pieces separators {} (joinWith separator ts) = ts := by
  induction h with
  | nil => exact absurd rfl hne
  | last hp =>
      rw [joinWith_cons, List.flatMap_nil, List.append_nil]
      exact hp
  | @cons p ps hp hbalanced _ ih =>
      cases ps with
      | nil =>
          rw [joinWith_cons, List.flatMap_nil, List.append_nil]
          exact hp
      | cons q qs =>
          rw [joinWith_cons_cons, pieces_append_cons (by rwa [hbalanced]), hp,
            ih (List.cons_ne_nil q qs), List.singleton_append]

end

/-! ## Components -/

/-- The text is not empty and has no blanks around it. -/
structure Solid (text : List Char) : Prop where
  ne_nil : text ≠ []
  trim_eq : trim text = text

instance (text : List Char) : Decidable (Solid text) :=
  decidable_of_iff (text ≠ [] ∧ trim text = text) ⟨fun h => ⟨h.1, h.2⟩, fun h => ⟨h.1, h.2⟩⟩

lemma Solid.startsBlank {text : List Char} (h : Solid text) : startsBlank text = false :=
  h.trim_eq ▸ startsBlank_trim text

lemma Solid.endsBlank {text : List Char} (h : Solid text) : endsBlank text = false :=
  h.trim_eq ▸ endsBlank_trim text

/-- What stands between solid texts makes no difference. -/
lemma Solid.append {a b : List Char} (ha : Solid a) (hb : Solid b) (between : List Char) :
    Solid (a ++ (between ++ b)) := by
  have hne : between ++ b ≠ [] := List.append_ne_nil_of_right_ne_nil _ hb.ne_nil
  refine ⟨List.append_ne_nil_of_left_ne_nil ha.ne_nil _, trim_eq_self ?_ ?_⟩
  · rw [startsBlank_append ha.ne_nil, ha.startsBlank]
  · rw [endsBlank_append hne, endsBlank_append hb.ne_nil, hb.endsBlank]

/-- What is joined from solid texts is solid. -/
lemma solid_joinWith {separator : Char} {texts : List (List Char)} (hne : texts ≠ [])
    (h : ∀ t ∈ texts, Solid t) : Solid (joinWith separator texts) := by
  induction texts with
  | nil => exact absurd rfl hne
  | cons t ts ih =>
      obtain ⟨ht, hts⟩ := List.forall_mem_cons.mp h
      cases ts with
      | nil => simpa [joinWith_cons] using ht
      | cons u us =>
          rw [joinWith_cons_cons]
          exact ht.append (ih (List.cons_ne_nil u us) hts) [separator]

section

variable {separators : List Char}

/-- Trimming makes no cut. -/
lemma Whole.trim {text : List Char} (h : Whole separators {} text) :
    Whole separators {} (trim text) := by
  obtain ⟨lead, trail, htext, hlead, _⟩ := exists_append_trim text
  rw [htext, whole_append, inkQuoted_start.after_of_forall hlead, whole_append] at h
  exact h.2.1

/-- Blanks in front and behind leave open what is open. -/
lemma after_trim (text : List Char) :
    Nesting.after {} (trim text) = Nesting.after {} text := by
  obtain ⟨lead, trail, htext, hlead, htrail⟩ := exists_append_trim text
  conv_rhs => rw [htext]
  rw [Nesting.after_append, inkQuoted_start.after_of_forall hlead, Nesting.after_append,
    (inkQuoted_start.after _).after_of_forall htrail]

theorem joinable_components (text : List Char) :
    Joinable separators (components separators text) :=
  ((joinable_pieces text).map fun t _ =>
    ⟨Whole.trim, fun ht => (after_trim t).trans ht⟩).filter _

/-- The components of a text are solid. -/
lemma solid_of_mem_components {text part : List Char} (h : part ∈ components separators text) :
    Solid part := by
  refine ⟨ne_nil_of_mem_components h, ?_⟩
  simp only [components, List.mem_filter, List.mem_map] at h
  obtain ⟨⟨piece, _, rfl⟩, _⟩ := h
  exact trim_eq_self (startsBlank_trim piece) (endsBlank_trim piece)

/-- Pieces that are solid are components. -/
lemma components_eq_pieces {text : List Char} (h : ∀ p ∈ pieces separators {} text, Solid p) :
    components separators text = pieces separators {} text := by
  have hmap : (pieces separators {} text).map Text.trim = pieces separators {} text :=
    (List.map_congr_left fun p hp => (h p hp).trim_eq).trans (List.map_id _)
  rw [components, hmap]
  exact List.filter_eq_self.mpr fun p hp => decide_eq_true (h p hp).ne_nil

variable {separator : Char}

/-- **Solid texts that can be told apart are the components of what they join to.** -/
theorem components_joinWith (hsep : Nesting.separates {} separators separator = true)
    {ts : List (List Char)} (h : Joinable separators ts) (hsolid : ∀ t ∈ ts, Solid t) :
    components separators (joinWith separator ts) = ts := by
  by_cases hne : ts = []
  · rw [hne]
    rfl
  · have hpieces := pieces_joinWith hsep h hne
    rw [components_eq_pieces (by rwa [hpieces]), hpieces]

/-- **Components, joined and cut again, are found again**, whichever of the separators joins
them. -/
theorem components_components (hsep : Nesting.separates {} separators separator = true)
    (text : List Char) :
    components separators (joinWith separator (components separators text)) =
      components separators text :=
  components_joinWith hsep (joinable_components text) fun _ => solid_of_mem_components

end

end AtomicStyle.Css
