import AtomicStyle.Proofs.Css.Importance
import AtomicStyle.Proofs.Css.Joining

/-!
# Where the splitter and the scan agree

Two readings of a text know what is quoted and what stands between parentheses: the nesting of the
splitter and the standing of the scan for terminators.  Only the scan knows escapes.  Is a safe text
cut into safe components?

**Cuts.**  `CutBehind` says where a text is cut.  As long as nothing was open at the cuts, the scan
starts afresh behind each of them, so what it finds in a piece is what it finds there in the whole
text.  The components of a safe text are safe exactly when the scan has nothing open at any cut
(`forall_pieces_iff`).

**Escapes.**  Nesting and standing are the same as long as no backslash stands in front of a quote
or a parenthesis (`Standing.Agrees.read`).  The splitter cuts where its nesting is empty, so then it
cuts where the scan has nothing open.
-/

namespace AtomicStyle.Css

open Text

/-! ## Cuts -/

section

variable {separators : List Char} {n : Nesting} {c : Char} {cs text : List Char}

/-- The text is cut behind `front`, when `n` is open in front of it: a separator stands there. -/
def CutBehind (separators : List Char) (n : Nesting) (text front : List Char) : Prop :=
  ∃ c back, text = front ++ c :: back ∧ (n.after front).separates separators c = true

lemma not_cutBehind_nil (front : List Char) : ¬CutBehind separators n [] front := by
  rintro ⟨c, back, htext, _⟩
  exact List.append_ne_nil_of_right_ne_nil front (List.cons_ne_nil c back) htext.symm

/-- A text is cut in front of its first character, or where the rest of it is cut. -/
lemma forall_cutBehind_cons {p : List Char → Prop} :
    (∀ front, CutBehind separators n (c :: cs) front → p front) ↔
      (n.separates separators c = true → p []) ∧
        ∀ front, CutBehind separators (n.next c) cs front → p (c :: front) := by
  constructor
  · intro h
    refine ⟨fun hc => h [] ⟨c, cs, rfl, hc⟩, ?_⟩
    rintro front ⟨d, back, rfl, hd⟩
    exact h (c :: front) ⟨d, back, rfl, hd⟩
  · rintro ⟨hfirst, hrest⟩ front ⟨d, back, htext, hd⟩
    cases front with
    | nil =>
        obtain rfl := (List.cons.inj htext).1
        exact hfirst hd
    | cons e front =>
        obtain ⟨rfl, rfl⟩ := List.cons.inj htext
        exact hrest front ⟨d, back, rfl, hd⟩

namespace Standing

/-- Read from the standing, the text comes to an end with nothing open. -/
def Closes (s : Standing) (text : List Char) : Prop :=
  ∃ t, s.read text = some t ∧ t.Closed

lemma closes_nil {s : Standing} : s.Closes [] ↔ s.Closed := by
  simp [Closes]

lemma closes_cons {s t : Standing} (h : s.next? c = some t) : s.Closes (c :: cs) ↔ t.Closes cs := by
  rw [Closes, read_cons, h]
  rfl

lemma exists_next?_of_closes {s : Standing} (h : s.Closes (c :: cs)) :
    ∃ t, s.next? c = some t ∧ t.Closes cs := by
  obtain ⟨u, hread, hclosed⟩ := h
  obtain ⟨t, ht, hu⟩ := Option.bind_eq_some_iff.mp hread
  exact ⟨t, ht, u, hu, hclosed⟩

/-- Where nothing is open a separator leaves nothing open, not even an escape. -/
lemma eq_of_next?_of_separates {s t : Standing} (hs : s.Closed) (hbackslash : c ≠ '\\')
    (hc : Nesting.separates {} separators c = true) (ht : s.next? c = some t) : t = {} := by
  obtain ⟨depth, quote, escaped⟩ := s
  obtain ⟨rfl, rfl⟩ : depth = 0 ∧ quote = none := hs
  simp only [Nesting.separates, Bool.and_eq_true, Bool.not_eq_true', Bool.or_eq_false_iff,
    beq_eq_false_iff_ne] at hc
  obtain ⟨_, ⟨⟨hdouble, hsingle⟩, hopen⟩, hclose⟩ := hc
  cases escaped with
  | true => exact (Option.some.inj ht).symm
  | false =>
      simp only [next?, hbackslash, hdouble, hsingle, hopen, hclose, Bool.false_eq_true,
        if_false] at ht
      split_ifs at ht
      exact (Option.some.inj ht).symm

end Standing

/-- **What is open at the cuts.**  The first piece of a text is read from where the text is read, and
each other piece afresh.  All of them close exactly when the text closes at each of its cuts. -/
theorem forall_pieces_iff (hseparators : '\\' ∉ separators) {s : Standing} (h : s.Closes text) :
    ∃ p ps, pieces separators n text = p :: ps ∧
      ((s.Closes p ∧ ∀ q ∈ ps, terminator? q = none) ↔
        ∀ front, CutBehind separators n text front → s.Closes front) := by
  induction text generalizing n s with
  | nil =>
      refine ⟨[], [], rfl, ?_⟩
      exact iff_of_true ⟨h, by simp⟩ fun front hfront => absurd hfront (not_cutBehind_nil front)
  | cons c cs ih =>
      obtain ⟨t, ht, hcs⟩ := Standing.exists_next?_of_closes h
      obtain ⟨p, ps, hps, hiff⟩ := ih (n := n.next c) hcs
      rw [forall_cutBehind_cons]
      simp only [Standing.closes_cons ht]
      cases hc : n.separates separators c with
      | true =>
          obtain rfl : n = {} := Nesting.eq_of_separates hc
          rw [Nesting.next_of_separates hc] at hps hiff
          refine ⟨[], p :: ps, by rw [pieces, if_pos hc, hps], ?_⟩
          rw [Standing.closes_nil, Nesting.next_of_separates hc, ← hiff, List.forall_mem_cons,
            imp_iff_right rfl]
          refine and_congr_right fun hs => ?_
          have hbackslash : c ≠ '\\' := by
            rintro rfl
            simp [Nesting.separates, hseparators] at hc
          obtain rfl := Standing.eq_of_next?_of_separates hs hbackslash hc ht
          rw [terminator?_eq_none_iff]
          rfl
      | false =>
          refine ⟨c :: p, ps, by rw [pieces, hc, if_neg Bool.false_ne_true, hps]; rfl, ?_⟩
          rw [Standing.closes_cons ht, hiff]
          simp

/-- Blanks at the ends make no difference to safety. -/
lemma terminator?_trim : terminator? (trim text) = none ↔ terminator? text = none := by
  obtain ⟨lead, trail, htext, hlead, htrail⟩ := exists_trim_append text
  conv_rhs => rw [htext]
  rw [terminator?_append_inert htrail, terminator?_append hlead.settled, Option.map_eq_none_iff]

/-- The components of a text are safe when its pieces are: what is left out is blank. -/
lemma forall_components_iff :
    (∀ part ∈ components separators text, terminator? part = none) ↔
      ∀ p ∈ pieces separators {} text, terminator? p = none := by
  simp only [components, List.mem_filter, List.mem_map, decide_eq_true_eq]
  constructor
  · intro h p hp
    by_cases hblank : trim p = []
    · rw [← terminator?_trim, hblank, terminator?_nil]
    · exact terminator?_trim.mp (h _ ⟨⟨p, hp, rfl⟩, hblank⟩)
  · rintro h _ ⟨⟨p, hp, rfl⟩, _⟩
    exact terminator?_trim.mpr (h p hp)

end

/-! ## Escapes -/

/-- Whether the character opens or closes something: a quote or a parenthesis. -/
def isEnclosing (c : Char) : Bool :=
  c == '"' || c == '\'' || c == '(' || c == ')'

/-- Whether a backslash of the text escapes a quote or a parenthesis; `escaped` says whether an open
escape stands in front of the text. -/
def escapesEnclosing (escaped : Bool) : List Char → Bool
  | [] => false
  | c :: cs => escaped && isEnclosing c || escapesEnclosing (!escaped && c == '\\') cs

/-- What the scan has open is what the splitter has open. -/
structure Standing.Agrees (s : Standing) (n : Nesting) : Prop where
  depth : s.depth = n.depth
  quote : s.quote.map QuoteMark.char = n.quote

namespace Standing

lemma agrees_start : Agrees {} {} := ⟨rfl, rfl⟩

/-- The scan and the splitter read a character alike, unless it is an escaped quote or
parenthesis. -/
lemma Agrees.next {s t : Standing} {n : Nesting} (h : s.Agrees n) {c : Char}
    (hc : s.escaped = true → isEnclosing c = false) (ht : s.next? c = some t) :
    t.Agrees (n.next c) := by
  obtain ⟨depth, quote, escaped⟩ := s
  obtain ⟨_, _⟩ := n
  obtain ⟨rfl, rfl⟩ := h
  -- a character that encloses nothing changes no nesting
  have hkeep : isEnclosing c = false →
      Nesting.next ⟨depth, quote.map QuoteMark.char⟩ c = ⟨depth, quote.map QuoteMark.char⟩ := by
    intro hplain
    simp only [isEnclosing, Bool.or_eq_false_iff, beq_eq_false_iff_ne] at hplain
    obtain ⟨⟨⟨hdouble, hsingle⟩, hopen⟩, hclose⟩ := hplain
    cases quote with
    | none => simp [Nesting.next, hdouble, hsingle, hopen, hclose]
    | some q => cases q <;> simp [Nesting.next, QuoteMark.char, hdouble, hsingle]
  cases escaped with
  | true =>
      obtain rfl := Option.some.inj ht
      rw [hkeep (hc rfl)]
      exact ⟨rfl, rfl⟩
  | false =>
      by_cases hb : c = '\\'
      · subst hb
        obtain rfl := Option.some.inj ht
        rw [hkeep (by decide)]
        exact ⟨rfl, rfl⟩
      cases quote with
      | some q =>
          simp only [next?, hb, Bool.false_eq_true, if_false, Option.some.injEq] at ht
          subst ht
          by_cases hq : c = q.char
          · simp only [Nesting.next, Option.map_some, hq, if_true]
            exact ⟨rfl, rfl⟩
          · simp only [Nesting.next, Option.map_some, hq, if_false]
            exact ⟨rfl, rfl⟩
      | none =>
          simp only [next?, hb, Bool.false_eq_true, if_false] at ht
          simp only [Nesting.next, Option.map_none]
          split_ifs at ht with hdouble hsingle hopen hclose
          all_goals obtain rfl := Option.some.inj ht
          · subst hdouble; exact ⟨rfl, rfl⟩
          · subst hsingle; exact ⟨rfl, rfl⟩
          · subst hopen; exact ⟨rfl, rfl⟩
          · subst hclose; exact ⟨rfl, rfl⟩
          · simpa [hdouble, hsingle, hopen, hclose] using ⟨rfl, rfl⟩

/-- **The scan and the splitter read a text alike**, unless a backslash of it escapes a quote or a
parenthesis. -/
theorem Agrees.read {s t : Standing} {n : Nesting} (h : s.Agrees n) {front back : List Char}
    (hescapes : escapesEnclosing s.escaped (front ++ back) = false)
    (ht : s.read front = some t) : t.Agrees (n.after front) := by
  induction front generalizing s n with
  | nil =>
      obtain rfl := Option.some.inj ht
      exact h
  | cons c cs ih =>
      obtain ⟨u, hu, ht⟩ := Option.bind_eq_some_iff.mp ht
      rw [List.cons_append, escapesEnclosing, Bool.or_eq_false_iff] at hescapes
      obtain ⟨hc, hrest⟩ := hescapes
      rw [← escaped_next? hu] at hrest
      exact ih (h.next (fun hs => by simpa [hs] using hc) hu) hrest ht

end Standing

/-- **Safe components.**  The components of a safe text are safe exactly when the scan has nothing
open wherever the text is cut; and that is so when no backslash of the text escapes a quote or a
parenthesis.  Only the backslash itself must not separate. -/
theorem terminator?_components_iff {separators text : List Char} (hseparators : '\\' ∉ separators)
    (h : terminator? text = none) :
    ((∀ part ∈ components separators text, terminator? part = none) ↔
        ∀ front, CutBehind separators {} text front → terminator? front = none) ∧
      (escapesEnclosing false text = false →
        ∀ part ∈ components separators text, terminator? part = none) := by
  have hcloses : ∀ {a : List Char}, terminator? a = none ↔ Standing.Closes {} a :=
    terminator?_eq_none_iff
  have hiff : (∀ part ∈ components separators text, terminator? part = none) ↔
      ∀ front, CutBehind separators {} text front → terminator? front = none := by
    obtain ⟨p, ps, hps, hiff⟩ := forall_pieces_iff (n := {}) hseparators (hcloses.mp h)
    rw [forall_components_iff, hps, List.forall_mem_cons, hcloses, hiff]
    simp only [hcloses]
  refine ⟨hiff, fun hescapes => hiff.mpr ?_⟩
  rintro front ⟨c, back, rfl, hcut⟩
  obtain ⟨t, ht, _⟩ := terminator?_eq_none_iff.mp h
  rw [Standing.read_append] at ht
  obtain ⟨u, hu, _⟩ := Option.bind_eq_some_iff.mp ht
  have hagrees := Standing.agrees_start.read hescapes hu
  rw [Nesting.eq_of_separates hcut] at hagrees
  exact terminator?_eq_none_iff.mpr
    ⟨u, hu, hagrees.depth, Option.map_eq_none_iff.mp hagrees.quote⟩

/-- Escapes outside quotes do no harm.  Behind an escaped quote the text is cut inside the quotes,
and both halves are left with a quote open. -/
theorem terminator?_components_of_escaped_quote :
    '\\' ∉ [' ', ','] ∧ terminator? "url(a b) c\\;d, 'e \\\\ f'".toList = none ∧
      terminator? "\"a\\\" b\"".toList = none ∧
      (∀ part ∈ components [' ', ','] "url(a b) c\\;d, 'e \\\\ f'".toList,
        terminator? part = none) ∧
      components [' ', ','] "\"a\\\" b\"".toList = ["\"a\\\"".toList, "b\"".toList] ∧
      ¬∀ part ∈ components [' ', ','] "\"a\\\" b\"".toList, terminator? part = none := by
  have hseparators : '\\' ∉ [' ', ','] := by decide
  have hharmless : terminator? "url(a b) c\\;d, 'e \\\\ f'".toList = none := by decide +kernel
  have hquoted : terminator? "\"a\\\" b\"".toList = none := by decide +kernel
  refine ⟨hseparators, hharmless, hquoted, ?_, by decide +kernel, fun hall => ?_⟩
  · exact (terminator?_components_iff hseparators hharmless).2 (by decide +kernel)
  · have hcut : CutBehind [' ', ','] {} "\"a\\\" b\"".toList "\"a\\\"".toList :=
      ⟨' ', "b\"".toList, by decide +kernel, by decide +kernel⟩
    have hopen := (terminator?_components_iff hseparators hquoted).1.mp hall _ hcut
    exact absurd hopen (by decide +kernel)

end AtomicStyle.Css
