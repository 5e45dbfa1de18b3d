import AtomicStyle.Css.Components
import AtomicStyle.Proofs.Css.Standing
import AtomicStyle.Proofs.Text.Tidy
import AtomicStyle.Text.Split
import Mathlib.Data.List.TakeWhile

/-!
# Respelling a text

Values are rewritten after they were found safe: words are exchanged, and lists are taken apart
and joined again with other blanks between their parts.  The splitter knows quotes and parentheses
but no escapes, so it may cut where the scan sees the inside of a quote.  What saves the result is
that all rewriting takes place among inert characters, wherever the cuts lie.

**Exchange.**  `Alike a b` says that no reading tells `a` from `b`.  Texts of inert characters are
alike unless one of them is empty (`alike_of_inert`), and likeness passes to what is built from
the parts (`Alike.append`).  So a text in which words are exchanged (`Reworded`) is like the text.

**Markers.**  `markersIn` leaves out of a text all that is inert.  Exchanging words keeps the
markers (`Reworded.markersIn`), and so does taking a list apart and joining it again
(`markersIn_components`).

**Loss of separators.**  Taking a list apart drops separators at the ends.  `OpensLike a b` allows
for that: read where no escape is open, `b` goes as far as `a` and leaves open what `a` leaves
open.  The escape may differ, as in `a\,`, which loses its last comma.

**Lists.**  `Respells` relates the pieces of a text to what becomes of them: a piece of inert
characters may be dropped, and any other may be replaced by one that opens like it.
`Respells.opensLike_joinWith` lifts this to the joined texts, and `opensLike_components` applies
it to the components of a value.
-/

namespace AtomicStyle.Css

open Text

/-! ## Texts that no reading tells apart -/

/-- No reading tells the texts apart. -/
def Alike (a b : List Char) : Prop :=
  ∀ s : Standing, s.read a = s.read b

lemma Alike.refl (a : List Char) : Alike a a := fun _ => rfl

lemma Alike.append {a b c d : List Char} (h : Alike a b) (k : Alike c d) :
    Alike (a ++ c) (b ++ d) := by
  intro s
  rw [Standing.read_append, Standing.read_append, h s]
  congr 1
  funext t
  exact k t

lemma Alike.cons {a b : List Char} (h : Alike a b) (c : Char) : Alike (c :: a) (c :: b) :=
  (Alike.refl [c]).append h

/-- Inert texts are alike unless one of them is empty: each uses up an open escape. -/
theorem alike_of_inert {a b : List Char} (ha : Inert a) (hb : Inert b) (ha' : a ≠ [])
    (hb' : b ≠ []) : Alike a b := by
  intro s
  rw [Standing.read_inert ha ha', Standing.read_inert hb hb']

/-- The one text becomes the other when words of inert characters are exchanged for others. -/
inductive Reworded : List Char → List Char → Prop
  | nil : Reworded [] []
  | keep (c : Char) {a b : List Char} (rest : Reworded a b) : Reworded (c :: a) (c :: b)
  | exchange {word other a b : List Char} (hword : Inert word) (hother : Inert other)
      (hne : word ≠ []) (hne' : other ≠ []) (rest : Reworded a b) :
      Reworded (word ++ a) (other ++ b)

lemma Reworded.keepAll (front : List Char) {a b : List Char} (h : Reworded a b) :
    Reworded (front ++ a) (front ++ b) := by
  induction front with
  | nil => exact h
  | cons c cs ih => exact .keep c ih

lemma Reworded.append {a b c d : List Char} (h : Reworded a b) (k : Reworded c d) :
    Reworded (a ++ c) (b ++ d) := by
  induction h with
  | nil => exact k
  | keep x _ ih => exact .keep x ih
  | exchange hword hother hne hne' _ ih =>
      rw [List.append_assoc, List.append_assoc]
      exact .exchange hword hother hne hne' ih

/-- **No reading tells a text from one in which words are exchanged.** -/
theorem Reworded.alike {a b : List Char} (h : Reworded a b) : Alike a b := by
  induction h with
  | nil => exact .refl []
  | keep c _ ih => exact ih.cons c
  | exchange hword hother hne hne' _ ih => exact (alike_of_inert hword hother hne hne').append ih

/-! ## Markers -/

/-- The characters of a text that the scan gives a meaning to, in order. -/
def markersIn (text : List Char) : List Char :=
  text.filter fun c => !isInert c

@[simp] lemma markersIn_append (a b : List Char) :
    markersIn (a ++ b) = markersIn a ++ markersIn b :=
  List.filter_append a b

lemma markersIn_cons_of_isInert {c : Char} (h : isInert c = true) (text : List Char) :
    markersIn (c :: text) = markersIn text := by
  simp [markersIn, h]

lemma markersIn_eq_nil {text : List Char} (h : Inert text) : markersIn text = [] := by
  rw [markersIn, List.filter_eq_nil_iff]
  intro c hc
  simp [h c hc]

/-- A marker comes in a text as often as among its markers. -/
lemma count_markersIn {c : Char} (h : isInert c = false) (text : List Char) :
    (markersIn text).count c = text.count c :=
  List.count_filter (by simp [h])

/-- **Exchanging words keeps the markers.** -/
theorem Reworded.markersIn {a b : List Char} (h : Reworded a b) :
    markersIn b = markersIn a := by
  induction h with
  | nil => rfl
  | keep c _ ih => simp only [Css.markersIn, List.filter_cons] at ih ⊢; rw [ih]
  | exchange hword hother _ _ _ ih =>
      rw [markersIn_append, markersIn_append, markersIn_eq_nil hword, markersIn_eq_nil hother, ih]

/-! ## Texts that leave the same open -/

/-- The standings differ at most in their escape. -/
structure Standing.SameOpen (s t : Standing) : Prop where
  depth : s.depth = t.depth
  quote : s.quote = t.quote

namespace Standing

lemma SameOpen.refl (s : Standing) : s.SameOpen s := ⟨rfl, rfl⟩

lemma SameOpen.trans {s t u : Standing} (h : s.SameOpen t) (k : t.SameOpen u) : s.SameOpen u :=
  ⟨h.depth.trans k.depth, h.quote.trans k.quote⟩

/-- An inert character takes standings that differ in their escape to the same standing. -/
lemma SameOpen.next?_inert {s t : Standing} (h : s.SameOpen t) {c : Char}
    (hc : isInert c = true) : s.next? c = t.next? c := by
  obtain ⟨depth, quote, _⟩ := s
  obtain ⟨_, _, _⟩ := t
  obtain ⟨rfl, rfl⟩ := h
  rw [Standing.next?_inert hc, Standing.next?_inert hc]

end Standing

/-- Read where no escape is open, `b` goes as far as `a` and leaves open what `a` leaves open. -/
def OpensLike (a b : List Char) : Prop :=
  ∀ s t : Standing, s.escaped = false → s.read a = some t → ∃ u, s.read b = some u ∧ u.SameOpen t

lemma OpensLike.refl (a : List Char) : OpensLike a a := fun _ t _ h => ⟨t, h, .refl t⟩

lemma OpensLike.trans {a b c : List Char} (h : OpensLike a b) (k : OpensLike b c) :
    OpensLike a c := by
  intro s t hs ht
  obtain ⟨u, hu, hut⟩ := h s t hs ht
  obtain ⟨w, hw, hwu⟩ := k s u hs hu
  exact ⟨w, hw, hwu.trans hut⟩

lemma Alike.opensLike {a b : List Char} (h : Alike a b) : OpensLike a b := by
  intro s t _ ht
  exact ⟨t, (h s) ▸ ht, .refl t⟩

/-- **What opens like a safe text is safe.** -/
theorem OpensLike.terminator?_eq_none {a b : List Char} (h : OpensLike a b)
    (ha : terminator? a = none) : terminator? b = none := by
  obtain ⟨t, ht, hdepth, hquote⟩ := terminator?_eq_none_iff.mp ha
  obtain ⟨u, hu, hut⟩ := h {} t rfl ht
  exact terminator?_eq_none_iff.mpr ⟨u, hu, hut.depth.trans hdepth, hut.quote.trans hquote⟩

/-! ## Blanks at the ends -/

lemma isInert_of_isBlank {c : Char} (h : isBlank c = true) : isInert c = true := by
  have hblank : markers.any isBlank = false := by decide
  exact isInert_of_any_markers hblank h

/-- A text is its trimmed text between inert texts. -/
lemma exists_trim_append (text : List Char) :
    ∃ lead trail, text = lead ++ trim text ++ trail ∧ Inert lead ∧ Inert trail := by
  obtain ⟨lead, trail, htext, hlead, htrail⟩ := exists_append_trim text
  exact ⟨lead, trail, htext.trans (List.append_assoc _ _ _).symm,
    fun c hc => isInert_of_isBlank (hlead c hc), fun c hc => isInert_of_isBlank (htrail c hc)⟩

/-- A text opens like its trimmed text. -/
theorem opensLike_trim (text : List Char) : OpensLike text (trim text) := by
  obtain ⟨lead, trail, htext, hlead, htrail⟩ := exists_trim_append text
  intro s t hs ht
  rw [htext, List.append_assoc, Standing.read_append,
    Standing.read_inert_of_not_escaped hlead hs, Option.bind_some, Standing.read_append] at ht
  obtain ⟨u, hu, hut⟩ := Option.bind_eq_some_iff.mp ht
  refine ⟨u, hu, ?_⟩
  by_cases hne : trail = []
  · obtain rfl : u = t := by simpa [hne] using hut
    exact .refl u
  · rw [Standing.read_inert htrail hne, Option.some.injEq] at hut
    subst hut
    exact ⟨rfl, rfl⟩

lemma inert_of_trim_eq_nil {text : List Char} (h : trim text = []) : Inert text := by
  obtain ⟨lead, trail, htext, hlead, htrail⟩ := exists_trim_append text
  rw [htext, h]
  simpa using ⟨hlead, htrail⟩

/-! ## Lists of pieces -/

/-- What becomes of the pieces of a text: a piece of inert characters may be dropped, and any
other is replaced by a piece that opens like it. -/
inductive Respells : List (List Char) → List (List Char) → Prop
  | nil : Respells [] []
  | drop {p : List Char} {ps qs : List (List Char)} (h : Inert p) (rest : Respells ps qs) :
      Respells (p :: ps) qs
  | keep {p q : List Char} {ps qs : List (List Char)} (h : OpensLike p q)
      (rest : Respells ps qs) : Respells (p :: ps) (q :: qs)

section

variable {separator : Char}

/-- Where no escape is open, it makes no difference whether a separator stands in front too. -/
lemma Standing.read_joinWith (hsep : isInert separator = true) {s : Standing}
    (hs : s.escaped = false) (pieces : List (List Char)) :
    s.read (joinWith separator pieces) = s.read (pieces.flatMap (separator :: ·)) := by
  cases pieces with
  | nil => rfl
  | cons p ps =>
      rw [joinWith_cons, List.flatMap_cons, List.cons_append, Standing.read_cons,
        Standing.next?_inert_of_not_escaped hsep hs]
      rfl

/-- Behind standings that agree up to an escape, the respelled pieces open like the pieces. -/
lemma Respells.read_flatMap (hsep : isInert separator = true) {ps qs : List (List Char)}
    (h : Respells ps qs) {s s' t : Standing} (hs : s'.SameOpen s)
    (ht : s.read (ps.flatMap (separator :: ·)) = some t) :
    ∃ u, s'.read (qs.flatMap (separator :: ·)) = some u ∧ u.SameOpen t := by
  induction h generalizing s s' with
  | nil =>
      obtain rfl : s = t := by simpa using ht
      exact ⟨s', rfl, hs⟩
  | @drop p ps qs hp _ ih =>
      rw [List.flatMap_cons, List.cons_append, Standing.read_cons, Standing.next?_inert hsep,
        Option.bind_some, Standing.read_append, Standing.read_inert_of_not_escaped hp rfl,
        Option.bind_some] at ht
      have hs₁ : s'.SameOpen { s with escaped := false } := ⟨hs.depth, hs.quote⟩
      exact ih hs₁ ht
  | @keep p q ps qs hpq _ ih =>
      -- the separator in front of the piece uses up the escape in which the standings may differ
      rw [List.flatMap_cons, List.cons_append, Standing.read_cons] at ht ⊢
      rw [hs.next?_inert hsep, Standing.next?_inert hsep, Option.bind_some, Standing.read_append]
      rw [Standing.next?_inert hsep, Option.bind_some, Standing.read_append] at ht
      obtain ⟨v, hv, hvt⟩ := Option.bind_eq_some_iff.mp ht
      obtain ⟨w, hw, hwv⟩ := hpq _ v rfl hv
      obtain ⟨u, hu, hut⟩ := ih hwv hvt
      exact ⟨u, by rw [hw, Option.bind_some, hu], hut⟩

/-- **Respelled pieces, joined again, open like the text they were cut from.** -/
theorem Respells.opensLike_joinWith (hsep : isInert separator = true)
    {ps qs : List (List Char)} (h : Respells ps qs) :
    OpensLike (joinWith separator ps) (joinWith separator qs) := by
  intro s t hs ht
  rw [Standing.read_joinWith hsep hs] at ht ⊢
  exact h.read_flatMap hsep (.refl s) ht

end

lemma Respells.refl (ps : List (List Char)) : Respells ps ps := by
  induction ps with
  | nil => exact .nil
  | cons p ps ih => exact .keep (.refl p) ih

/-- Each piece may be replaced by one that opens like it. -/
lemma respells_map {f : List Char → List Char} (hf : ∀ p, OpensLike p (f p))
    (ps : List (List Char)) : Respells ps (ps.map f) := by
  induction ps with
  | nil => exact .nil
  | cons p ps ih => exact .keep (hf p) ih

/-! ## The components of a value -/

section

variable {separator : Char}

/-- A character in front of the first of some pieces stands in front of what they join to. -/
lemma joinWith_consFirst (c : Char) {ps : List (List Char)} (h : ps ≠ []) :
    joinWith separator (consFirst c ps) = c :: joinWith separator ps := by
  cases ps with
  | nil => exact absurd rfl h
  | cons p ps => rw [consFirst, joinWith_cons, joinWith_cons, List.cons_append]

/-- **Cutting a text loses nothing.**  Whatever is taken to be open in front of it, its pieces
join to the text. -/
theorem joinWith_pieces (n : Nesting) (text : List Char) :
    joinWith separator (pieces [separator] n text) = text := by
  induction text generalizing n with
  | nil => simp [pieces, joinWith_cons]
  | cons c cs ih =>
      rw [pieces]
      split_ifs with hc
      · obtain rfl : c = separator := by
          simp only [Nesting.separates, List.contains_cons, List.contains_nil, Bool.or_false,
            Bool.and_eq_true, beq_iff_eq] at hc
          exact hc.1.2
        obtain ⟨p, ps, hps⟩ := List.exists_cons_of_ne_nil (pieces_ne_nil [c] n cs)
        have hcs := ih n
        rw [hps, joinWith_cons] at hcs
        rw [hps, joinWith_cons, List.flatMap_cons, List.nil_append, List.cons_append, hcs]
      · rw [joinWith_consFirst c (pieces_ne_nil _ _ _), ih]

/-- Trimming pieces and leaving out what is empty respells them. -/
lemma respells_trim (ps : List (List Char)) : Respells ps ((ps.map trim).filter (· ≠ [])) := by
  induction ps with
  | nil => exact .nil
  | cons p ps ih =>
      by_cases hp : trim p = []
      · simpa [hp] using Respells.drop (inert_of_trim_eq_nil hp) ih
      · simpa [hp] using Respells.keep (opensLike_trim p) ih

/-- **A text opens like its components joined again.** -/
theorem opensLike_components (hsep : isInert separator = true) (text : List Char) :
    OpensLike text (joinWith separator (components [separator] text)) := by
  have h : OpensLike (joinWith separator (pieces [separator] {} text))
      (joinWith separator (components [separator] text)) :=
    (respells_trim _).opensLike_joinWith hsep
  rwa [joinWith_pieces] at h

/-- Trimming takes blanks only. -/
lemma filter_trim {keep : Char → Bool} (hblank : ∀ c, isBlank c = true → keep c = false)
    (text : List Char) : (trim text).filter keep = text.filter keep := by
  have hnone : ∀ {blanks : List Char}, (∀ c ∈ blanks, isBlank c = true) →
      blanks.filter keep = [] := by
    intro blanks h
    exact List.filter_eq_nil_iff.mpr fun c hc => by simp [hblank c (h c hc)]
  obtain ⟨lead, trail, htext, hlead, htrail⟩ := exists_append_trim text
  conv_rhs => rw [htext]
  rw [List.filter_append, List.filter_append, hnone hlead, hnone htrail, List.nil_append,
    List.append_nil]

/-- Without its separators a joined text is the sum of its parts. -/
lemma filter_joinWith {keep : Char → Bool} (hsep : keep separator = false)
    (texts : List (List Char)) :
    (joinWith separator texts).filter keep = texts.flatMap (List.filter keep) := by
  have hflat : ∀ texts : List (List Char),
      (texts.flatMap (separator :: ·)).filter keep = texts.flatMap (List.filter keep) := by
    intro texts
    rw [List.filter_flatMap]
    simp only [List.filter_cons, hsep]
    rfl
  cases texts with
  | nil => rfl
  | cons text texts => rw [joinWith_cons, List.filter_append, hflat, List.flatMap_cons]

/-- The pieces of a text hold all of it but separators. -/
lemma filter_pieces {separators : List Char} {keep : Char → Bool}
    (hseparators : ∀ c ∈ separators, keep c = false) (n : Nesting) (text : List Char) :
    (pieces separators n text).flatMap (List.filter keep) = text.filter keep := by
  induction text generalizing n with
  | nil => rfl
  | cons c cs ih =>
      rw [pieces]
      split_ifs with hc
      · have hmem : c ∈ separators := by
          simp only [Nesting.separates, Bool.and_eq_true, List.contains_iff_mem] at hc
          exact hc.1.2
        rw [List.flatMap_cons, ih, List.filter_nil, List.nil_append,
          List.filter_cons_of_neg (by simp [hseparators c hmem])]
      · obtain ⟨p, ps, hps⟩ := List.exists_cons_of_ne_nil (pieces_ne_nil separators (n.next c) cs)
        have hcs := ih (n.next c)
        rw [hps, List.flatMap_cons] at hcs
        rw [hps, consFirst, List.flatMap_cons, ← List.singleton_append, List.filter_append,
          List.append_assoc, hcs, ← List.filter_append, List.singleton_append]

/-- **The components of a text hold all of it** but separators and blanks. -/
theorem filter_components {separators : List Char} {keep : Char → Bool}
    (hblank : ∀ c, isBlank c = true → keep c = false)
    (hseparators : ∀ c ∈ separators, keep c = false) (text : List Char) :
    (components separators text).flatMap (List.filter keep) = text.filter keep := by
  have hkept : ∀ ps : List (List Char),
      ((ps.map trim).filter (· ≠ [])).flatMap (List.filter keep) =
        ps.flatMap (List.filter keep) := by
    intro ps
    induction ps with
    | nil => rfl
    | cons p ps ih =>
        rw [List.map_cons, List.filter_cons, List.flatMap_cons, ← ih, ← filter_trim hblank p]
        by_cases hp : trim p = []
        · simp [hp]
        · simp [hp]
  rw [components, hkept, filter_pieces hseparators]

/-- An inert separator is no marker. -/
lemma markersIn_joinWith (hsep : isInert separator = true) (texts : List (List Char)) :
    markersIn (joinWith separator texts) = texts.flatMap markersIn :=
  filter_joinWith (by simp [hsep]) texts

/-- **The components of a text hold its markers.** -/
theorem markersIn_components (hsep : isInert separator = true) (text : List Char) :
    (components [separator] text).flatMap markersIn = markersIn text :=
  filter_components (fun c hc => by simp [isInert_of_isBlank hc]) (by simp [hsep]) text

end

end AtomicStyle.Css
