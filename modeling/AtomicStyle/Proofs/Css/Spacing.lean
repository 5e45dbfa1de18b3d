import AtomicStyle.Proofs.Css.ComponentCount

/-!
# Components and the spelling of blanks

Two spellings of a value differ in their blanks, and have one tidy text.  Do they have the same
components?  A value is cut into components at spaces only, so a tab between two words makes one
component of them, and collapsing it makes two.

**Words.**  If a value is cut at *every* blank, nothing is left to the spelling: cutting first and
collapsing the components gives what collapsing first and cutting gives (`map_collapse_components`).
The proof goes along a text and its collapsed text at once.  Their pieces match one by one, and the
first ones as they stand (`Aligned`), except within a run of blanks that has cut already.

**Spaces.**  `CutAtSpaces` says of a text that spaces alone cut it as all blanks would.  Of such a
text the components are, up to their own blanks, a matter of the tidy text.
-/

namespace AtomicStyle.Css

open Text

/-! ## Blanks as separators -/

/-- The code points of the blank characters. -/
def blankCodes : List Nat :=
  [9, 10, 11, 12, 13, 28, 29, 30, 31, 32, 0x85, 0xA0, 0x1680, 0x2000, 0x2001, 0x2002, 0x2003, 0x2004,
    0x2005, 0x2006, 0x2007, 0x2008, 0x2009, 0x200A, 0x2028, 0x2029, 0x202F, 0x205F, 0x3000]

/-- All blank characters. -/
def blanks : List Char :=
  blankCodes.map Char.ofNat

lemma mem_blanks {c : Char} : c ∈ blanks ↔ isBlank c = true := by
  constructor
  · have hall : blanks.all isBlank = true := by decide
    exact List.all_eq_true.mp hall c
  · intro hc
    have hcode : c.toNat ∈ blankCodes := by
      simp only [isBlank, Bool.or_eq_true, Bool.and_eq_true, decide_eq_true_eq, beq_iff_eq] at hc
      simp only [blankCodes, List.mem_cons, List.not_mem_nil, or_false]
      omega
    exact List.mem_map.mpr ⟨c.toNat, hcode, Char.ofNat_toNat c⟩

namespace Nesting

variable {n : Nesting} {c : Char}

/-- Where a space separates, every blank does, and no blank where it does not. -/
lemma separates_of_isBlank (hc : isBlank c = true) :
    n.separates blanks c = n.separates [' '] ' ' := by
  have hne : ∀ d, isBlank d = false → (c == d) = false := by
    intro d hd
    refine beq_eq_false_iff_ne.mpr ?_
    rintro rfl
    rw [hc] at hd
    cases hd
  simp [separates, mem_blanks, hc, hne '"' (by decide), hne '\'' (by decide),
    hne '(' (by decide), hne ')' (by decide)]

lemma separates_blanks_of_not_isBlank (hc : isBlank c = false) : n.separates blanks c = false := by
  simp [separates, mem_blanks, hc]

end Nesting

/-! ## Words -/

/-- The texts that hold anything. -/
def nonempty (texts : List (List Char)) : List (List Char) :=
  texts.filter (· ≠ [])

lemma nonempty_cons (text : List Char) (texts : List (List Char)) :
    nonempty (text :: texts) = if text = [] then nonempty texts else text :: nonempty texts := by
  rw [nonempty, List.filter_cons]
  by_cases h : text = [] <;> simp [h, nonempty]

/-- Pieces of a text and of what it collapses to: the first ones as they stand, so that characters
can be put in front of them, and the others by what is left of them. -/
def Aligned (inRun : Bool) (ps qs : List (List Char)) : Prop :=
  ∃ p ps' q qs', ps = p :: ps' ∧ qs = q :: qs' ∧ q = collapseFrom inRun p ∧
    nonempty (ps'.map tidy) = nonempty (qs'.map trim)

lemma Aligned.words {inRun : Bool} {ps qs : List (List Char)} (h : Aligned inRun ps qs) :
    nonempty (ps.map tidy) = nonempty (qs.map trim) := by
  obtain ⟨p, ps', q, qs', rfl, rfl, rfl, hrest⟩ := h
  rw [List.map_cons, List.map_cons, nonempty_cons, nonempty_cons, trim_collapseFrom, hrest]

/-- A character is put in front of both. -/
lemma Aligned.consFirst {inRun inRun' : Bool} {c d : Char} {ps qs : List (List Char)}
    (hcons : ∀ p, collapseFrom inRun' (c :: p) = d :: collapseFrom inRun p)
    (h : Aligned inRun ps qs) : Aligned inRun' (consFirst c ps) (consFirst d qs) := by
  obtain ⟨p, ps', q, qs', rfl, rfl, rfl, hrest⟩ := h
  exact ⟨c :: p, ps', _, qs', rfl, rfl, (hcons p).symm, hrest⟩

/-- A blank inside a run is put in front of the one and left out of the other. -/
lemma Aligned.consFirst_left {c : Char} {ps qs : List (List Char)} (hc : isBlank c = true)
    (h : Aligned true ps qs) : Aligned true (Text.consFirst c ps) qs := by
  obtain ⟨p, ps', q, qs', rfl, rfl, rfl, hrest⟩ := h
  exact ⟨c :: p, ps', _, qs', rfl, rfl, (collapseFrom_true_cons hc).symm, hrest⟩

section

variable {n : Nesting} {c : Char}

lemma pieces_cons_of_not_isBlank (hc : isBlank c = false) (cs : List Char) :
    pieces blanks n (c :: cs) = Text.consFirst c (pieces blanks (n.next c) cs) := by
  rw [pieces, Nesting.separates_blanks_of_not_isBlank hc]
  rfl

/-- Where a space separates, a blank begins a piece. -/
lemma pieces_cons_of_separates (hc : isBlank c = true) (h : n.separates [' '] ' ' = true)
    (cs : List Char) : pieces blanks n (c :: cs) = [] :: pieces blanks n cs := by
  rw [pieces, Nesting.separates_of_isBlank hc, h, if_pos rfl]

/-- Where no space separates, a blank goes into the piece. -/
lemma pieces_cons_of_not_separates (hn : n.InkQuoted) (hc : isBlank c = true)
    (h : n.separates [' '] ' ' = false) (cs : List Char) :
    pieces blanks n (c :: cs) = Text.consFirst c (pieces blanks n cs) := by
  rw [pieces, Nesting.separates_of_isBlank hc, h, hn.next_of_isBlank hc]
  rfl

/-- **The pieces of a text between blanks and those of the collapsed text between spaces have the same
words**, and they are aligned unless a run of blanks has begun where a space would separate. -/
theorem pieces_collapseFrom (hn : n.InkQuoted) (inRun : Bool) (text : List Char) :
    nonempty ((pieces blanks n text).map tidy) =
        nonempty ((pieces [' '] n (collapseFrom inRun text)).map trim) ∧
      (inRun = false ∨ n.separates [' '] ' ' = false →
        Aligned inRun (pieces blanks n text) (pieces [' '] n (collapseFrom inRun text))) := by
  induction text generalizing n inRun with
  | nil => exact ⟨rfl, fun _ => ⟨[], [], [], [], rfl, rfl, rfl, rfl⟩⟩
  | cons c cs ih =>
      -- pieces that are aligned have the same words, so alignment is shown wherever there is one
      have hwhole : Aligned inRun (pieces blanks n (c :: cs))
            (pieces [' '] n (collapseFrom inRun (c :: cs))) →
          nonempty ((pieces blanks n (c :: cs)).map tidy) =
              nonempty ((pieces [' '] n (collapseFrom inRun (c :: cs))).map trim) ∧
            (inRun = false ∨ n.separates [' '] ' ' = false →
              Aligned inRun (pieces blanks n (c :: cs))
                (pieces [' '] n (collapseFrom inRun (c :: cs)))) :=
        fun h => ⟨h.words, fun _ => h⟩
      cases hc : isBlank c with
      | false =>
          apply hwhole
          rw [pieces_cons_of_not_isBlank hc, collapseFrom_cons_of_not_isBlank hc, pieces,
            Nesting.separates_of_not_isBlank hc]
          exact ((ih (hn.next c) false).2 (Or.inl rfl)).consFirst fun p =>
            collapseFrom_cons_of_not_isBlank hc
      | true =>
          have hspace : isBlank ' ' = true := by decide
          obtain ⟨hwords, haligned⟩ := ih hn true
          cases hseparates : n.separates [' '] ' ' with
          | true =>
              cases inRun with
              | true =>
                  rw [pieces_cons_of_separates hc hseparates, collapseFrom_true_cons hc]
                  exact ⟨hwords, by simp⟩
              | false =>
                  rw [hseparates] at hwhole
                  apply hwhole
                  rw [pieces_cons_of_separates hc hseparates, collapseFrom_false_cons hc, pieces,
                    hseparates, if_pos rfl]
                  exact ⟨[], _, [], _, rfl, rfl, rfl, hwords⟩
          | false =>
              rw [hseparates] at hwhole
              apply hwhole
              rw [pieces_cons_of_not_separates hn hc hseparates]
              cases inRun with
              | true =>
                  rw [collapseFrom_true_cons hc]
                  exact (haligned (Or.inr hseparates)).consFirst_left hc
              | false =>
                  rw [collapseFrom_false_cons hc, pieces, hseparates,
                    hn.next_of_isBlank hspace]
                  exact (haligned (Or.inr hseparates)).consFirst fun p => collapseFrom_false_cons hc

end

/-- Collapsing the components leaves what tidying the pieces leaves. -/
lemma map_collapse_nonempty (ps : List (List Char)) :
    (nonempty (ps.map trim)).map collapse = nonempty (ps.map tidy) := by
  induction ps with
  | nil => rfl
  | cons p ps ih =>
      have hnil : tidy p = [] ↔ trim p = [] := collapse_eq_nil_iff
      rw [List.map_cons, List.map_cons, nonempty_cons, nonempty_cons]
      split_ifs with htrim htidy htidy
      · exact ih
      · exact absurd (hnil.mpr htrim) htidy
      · exact absurd (hnil.mp htidy) htrim
      · rw [List.map_cons, ih]
        rfl

/-- **Cutting at every blank and collapsing the components is collapsing and cutting at spaces.** -/
theorem map_collapse_components (text : List Char) :
    (components blanks text).map collapse = components [' '] (collapse text) := by
  have hwords := (pieces_collapseFrom inkQuoted_start false text).1
  rw [← map_collapse_nonempty] at hwords
  exact hwords

/-! ## Spaces -/

/-- Spaces alone cut the text as all blanks would. -/
def CutAtSpaces (text : List Char) : Prop :=
  components [' '] text = components blanks text

instance (text : List Char) : Decidable (CutAtSpaces text) :=
  inferInstanceAs (Decidable (_ = _))

end AtomicStyle.Css
