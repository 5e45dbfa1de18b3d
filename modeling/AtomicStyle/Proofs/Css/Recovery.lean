import AtomicStyle.Proofs.Css.Agreement

/-!
# What cutting a value keeps

A value is cut into components, and components are joined to values again.  What is lost on the way?

**Cutting.**  The components of a text are solid, they are found again when they are joined, and
they hold all characters of the text that are neither blanks nor separators
(`components_lossless`).

**Closed components.**  Whether a text can stand among others as a component of its own is seen when
it is put next to itself: `isClosed_iff` says that it is then found twice exactly when it is solid,
is cut nowhere and leaves nothing open.  Closed texts with spaces between them are the components of
the value that they make up (`components_joinWith_of_closed`).
-/

namespace AtomicStyle.Css

open Text

/-! ## Cutting -/

/-- Whether the character is neither a blank nor one of the separators. -/
def isContent (separators : List Char) (c : Char) : Bool :=
  !isBlank c && !separators.contains c

lemma separates_of_mem {separators : List Char} {separator : Char} (hmem : separator ∈ separators)
    (h : isEnclosing separator = false) : Nesting.separates {} separators separator = true := by
  rw [isEnclosing] at h
  simp [Nesting.separates, hmem, h]

/-- **Cutting loses nothing and is stable.**  The components of a text are not empty and have no
blanks around them; joined with a separator they are found again; and they hold the content of the
text. -/
theorem components_lossless {separators : List Char} {separator : Char}
    (hmem : separator ∈ separators) (hseparator : isEnclosing separator = false)
    (text : List Char) :
    (∀ part ∈ components separators text,
        part ≠ [] ∧ startsBlank part = false ∧ endsBlank part = false) ∧
      components separators (joinWith separator (components separators text)) =
        components separators text ∧
      (components separators text).flatten.filter (isContent separators) =
        text.filter (isContent separators) := by
  refine ⟨fun part hpart => ?_, components_components (separates_of_mem hmem hseparator) text, ?_⟩
  · have hsolid := solid_of_mem_components hpart
    exact ⟨hsolid.ne_nil, hsolid.startsBlank, hsolid.endsBlank⟩
  · have hblank : ∀ c, isBlank c = true → isContent separators c = false :=
      fun c hc => by simp [isContent, hc]
    have hseparators : ∀ c ∈ separators, isContent separators c = false :=
      fun c hc => by simp [isContent, hc]
    rw [List.filter_flatten, ← List.flatMap_def, filter_components hblank hseparators]

/-- Pieces without content, a quoted separator, a closing parenthesis too many, and a parenthesis and
a quote that stay open. -/
theorem components_lossless_of_open_quote :
    ',' ∈ [' ', ','] ∧ isEnclosing ',' = false ∧
      components [' ', ','] " a( b,c ) ,, 'd,e' )f,( \"g, h ".toList =
        ["a( b,c )", "'d,e'", ")f", "( \"g, h"].map String.toList ∧
      components [' ', ','] "a( b,c ),'d,e',)f,( \"g, h".toList =
        ["a( b,c )", "'d,e'", ")f", "( \"g, h"].map String.toList := by
  have hmem : ',' ∈ [' ', ','] := by decide
  have hseparator : isEnclosing ',' = false := by decide
  have hparts : components [' ', ','] " a( b,c ) ,, 'd,e' )f,( \"g, h ".toList =
      ["a( b,c )", "'d,e'", ")f", "( \"g, h"].map String.toList := by decide +kernel
  obtain ⟨_, hagain, _⟩ :=
    components_lossless hmem hseparator " a( b,c ) ,, 'd,e' )f,( \"g, h ".toList
  rw [hparts] at hagain
  exact ⟨hmem, hseparator, hparts, hagain⟩

/-! ## Closed components -/

/-- What is left of pieces is no longer than the pieces. -/
lemma length_flatten_trim_le (texts : List (List Char)) :
    ((texts.map trim).filter (· ≠ [])).flatten.length ≤ texts.flatten.length := by
  induction texts with
  | nil => exact le_refl 0
  | cons t ts ih =>
      have ht := (trim_sublist t).length_le
      rw [List.map_cons, List.filter_cons, List.flatten_cons, List.length_append]
      split_ifs
      · rw [List.flatten_cons, List.length_append]
        omega
      · omega

/-- The text is found twice when it stands twice with a space between. -/
def IsClosed (part : List Char) : Prop :=
  components [' '] (part ++ ' ' :: part) = [part, part]

instance (part : List Char) : Decidable (IsClosed part) :=
  inferInstanceAs (Decidable (_ = _))

/-- If a text is found twice, the space between is the only cut: any other cut, and any blank that
is trimmed, would leave less than twice the text. -/
lemma IsClosed.pieces_eq {part : List Char} (h : IsClosed part) :
    pieces [' '] {} (part ++ ' ' :: part) = [part, part] := by
  generalize hps : pieces [' '] {} (part ++ ' ' :: part) = ps
  have hparts : [part, part] = (ps.map trim).filter (· ≠ []) := by rw [← h, components, hps]
  have hsub : [part, part].Sublist (ps.map trim) := hparts ▸ List.filter_sublist
  have htwo : 2 ≤ ps.length := by simpa using hsub.length_le
  have hkept : part.length + part.length ≤ ps.flatten.length := by
    have hle := length_flatten_trim_le ps
    rw [← hparts] at hle
    simpa using hle
  have hlength : (part ++ ' ' :: part).length + 1 = ps.flatten.length + ps.length := by
    have hne : ps ≠ [] := hps ▸ pieces_ne_nil _ _ _
    rw [← length_joinWith hne, ← hps, joinWith_pieces]
  rw [List.length_append, List.length_cons] at hlength
  obtain ⟨p, q, rfl⟩ := List.length_eq_two.mp (show ps.length = 2 by omega)
  obtain ⟨hp, hq⟩ : part = trim p ∧ part = trim q := by simpa using hsub.eq_of_length rfl
  have hple : part.length ≤ p.length := hp ▸ (trim_sublist p).length_le
  have hqle : part.length ≤ q.length := hq ▸ (trim_sublist q).length_le
  simp only [List.flatten_cons, List.flatten_nil, List.append_nil, List.length_append,
    List.length_cons, List.length_nil] at hlength
  have hpeq : trim p = p := (trim_sublist p).eq_of_length (by rw [← hp]; omega)
  have hqeq : trim q = q := (trim_sublist q).eq_of_length (by rw [← hq]; omega)
  rw [← hpeq, ← hqeq, ← hp, ← hq]

/-- **A text is closed exactly when it is solid, is cut nowhere and leaves nothing open.** -/
theorem isClosed_iff {part : List Char} :
    IsClosed part ↔ Solid part ∧ Whole [' '] {} part ∧ Balanced part := by
  constructor
  · intro h
    have hjoinable : Joinable [' '] (pieces [' '] {} (part ++ ' ' :: part)) := joinable_pieces _
    rw [h.pieces_eq] at hjoinable
    cases hjoinable with
    | cons hwhole hbalanced _ =>
        have hmem : part ∈ components [' '] (part ++ ' ' :: part) := by
          rw [h]
          exact List.mem_cons_self
        exact ⟨solid_of_mem_components hmem, hwhole, hbalanced⟩
  · rintro ⟨hsolid, hwhole, hbalanced⟩
    have hjoined : joinWith ' ' [part, part] = part ++ ' ' :: part := by
      rw [joinWith_cons_cons, joinWith_cons, List.flatMap_nil, List.append_nil]
    rw [IsClosed, ← hjoined]
    exact components_joinWith (by decide) (.cons hwhole hbalanced (.last hwhole)) (by simp [hsolid])

/-- **Closed texts are the components of what they join to.** -/
theorem components_joinWith_of_closed {parts : List (List Char)} (h : ∀ p ∈ parts, IsClosed p) :
    components [' '] (joinWith ' ' parts) = parts := by
  refine components_joinWith (by decide) ?_ fun p hp => (isClosed_iff.mp (h p hp)).1
  induction parts with
  | nil => exact .nil
  | cons p ps ih =>
      obtain ⟨hp, hps⟩ := List.forall_mem_cons.mp h
      obtain ⟨_, hwhole, hbalanced⟩ := isClosed_iff.mp hp
      exact .cons hwhole hbalanced (ih hps)

end AtomicStyle.Css
