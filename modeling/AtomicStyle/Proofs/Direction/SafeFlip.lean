import AtomicStyle.Direction.Flip
import AtomicStyle.Proofs.Css.Importance
import AtomicStyle.Proofs.Outcome
import AtomicStyle.Proofs.Property.Tables

/-!
# Flipping keeps a value safe

No check is made on a flipped value, so each flip must leave open what it finds open.

**Words.**  The flips of words and of gradients put one side word in the place of another.  A side
word is inert in whatever case it is found (`reworded_flipWords`, `reworded_flipGradients`), so no
reading tells the flipped text from the text.  The flips run with a number of characters still to
skip, and the statements speak of the text behind these.

**Shadows.**  The flip of a shadow list takes it apart at commas, and each shadow at spaces; it
negates some components and joins what is left.  Negation touches only signs in front, where no
escape is open (`opensLike_negate`), and the rest is respelling (`opensLike_flipShadows`).

**Cursors.**  A cursor that has an opposite is replaced by a constant.

`terminator?_flipValue` puts the families together.
-/

namespace AtomicStyle.Flip

open Css Text

/-! ## Words -/

lemma opposite_eq_ok {word flipped : List Char} (h : opposite word = .ok flipped) :
    flipped = left ∨ flipped = right := by
  unfold opposite at h
  dsimp only at h
  split_ifs at h
  · exact Or.inr (Except.ok.inj h).symm
  · exact Or.inl (Except.ok.inj h).symm
  · exact absurd h (fault_ne_ok _ _)

lemma left_ne_nil : left ≠ [] := by simp [left]

lemma right_ne_nil : right ≠ [] := by simp [right]

/-- A side word spells `left` or `right`, and no word goes on across its ends. -/
lemma exists_of_sideWord? {before : Option Char} {text word : List Char}
    (h : sideWord? before text = some word) :
    before.any isWordChar = false ∧ (word.map foldChar = left ∨ word.map foldChar = right) ∧
      ∃ rest, text = word ++ rest ∧ continues rest = false := by
  have hdrop : ∀ side rest, dropWord? side text = some rest →
      text = text.take (text.length - rest.length) ++ rest ∧
        (text.take (text.length - rest.length)).map foldChar = side := by
    intro side rest hrest
    obtain ⟨w, rfl, hw⟩ := dropWord?_eq_some_iff.mp hrest
    rw [take_length_sub]
    exact ⟨rfl, hw⟩
  unfold sideWord? at h
  split_ifs at h with hbefore
  split at h
  case h_1 rest hor =>
      split_ifs at h with hrest
      obtain rfl := Option.some.inj h
      refine ⟨Bool.eq_false_iff.mpr hbefore, ?_⟩
      rcases Option.or_eq_some_iff.mp hor with hleft | ⟨_, hright⟩
      · obtain ⟨htext, hfold⟩ := hdrop left rest hleft
        exact ⟨Or.inl hfold, rest, htext, Bool.eq_false_iff.mpr hrest⟩
      · obtain ⟨htext, hfold⟩ := hdrop right rest hright
        exact ⟨Or.inr hfold, rest, htext, Bool.eq_false_iff.mpr hrest⟩
  case h_2 => simp at h

lemma inert_of_map_foldChar_side {word : List Char}
    (h : word.map foldChar = left ∨ word.map foldChar = right) : Inert word ∧ word ≠ [] := by
  rcases h with h | h
  · exact ⟨inert_of_map_foldChar h (by decide), fun hnil => by simp [hnil, left] at h⟩
  · exact ⟨inert_of_map_foldChar h (by decide), fun hnil => by simp [hnil, right] at h⟩

/-- **Flipping words exchanges inert words**, from the point where the flip stands. -/
theorem reworded_flipWordsFrom {before : Option Char} {skip : Nat} {text flipped : List Char}
    (h : flipWordsFrom before skip text = .ok flipped) : Reworded (text.drop skip) flipped := by
  induction text generalizing before skip flipped with
  | nil =>
      obtain rfl := Except.ok.inj h
      rw [List.drop_nil]
      exact .nil
  | cons c cs ih =>
      rw [flipWordsFrom] at h
      split_ifs at h with hskip
      · obtain ⟨k, rfl⟩ : ∃ k, skip = k + 1 := ⟨skip - 1, by omega⟩
        exact ih h
      · obtain rfl : skip = 0 := by omega
        -- a word that stands here is replaced at once, and its other characters are skipped
        split at h
        case h_1 word hword =>
            obtain ⟨side, hside, h⟩ := bind_eq_ok.mp h
            obtain ⟨rest, hrest, h⟩ := bind_eq_ok.mp h
            obtain rfl := pure_eq_ok.mp h
            obtain ⟨_, hfold, behind, htext, _⟩ := exists_of_sideWord? hword
            obtain ⟨hinert, hne⟩ := inert_of_map_foldChar_side hfold
            have hbehind : cs.drop (word.length - 1) = behind := by
              obtain ⟨d, ds, rfl⟩ := List.exists_cons_of_ne_nil hne
              obtain ⟨rfl, rfl⟩ := List.cons.inj htext
              simp
            have hrest := hbehind ▸ ih hrest
            rw [List.drop_zero, htext]
            rcases opposite_eq_ok hside with rfl | rfl
            · exact .exchange hinert (by decide) hne left_ne_nil hrest
            · exact .exchange hinert (by decide) hne right_ne_nil hrest
        case h_2 =>
            obtain ⟨rest, hrest, h⟩ := bind_eq_ok.mp h
            obtain rfl := pure_eq_ok.mp h
            exact .keep c (ih hrest)

theorem reworded_flipWords {text flipped : List Char} (h : flipWords text = .ok flipped) :
    Reworded text flipped :=
  reworded_flipWordsFrom h

/-! ## Gradients -/

/-- The head and the direction of a gradient stand at the front of the text. -/
lemma exists_of_gradient? {text head direction : List Char}
    (h : gradient? text = some (head, direction)) :
    (∃ rest, text = head ++ direction ++ rest) ∧ direction ≠ [] := by
  simp only [gradient?, Option.bind_eq_bind, Option.bind_eq_some_iff] at h
  obtain ⟨inside, hinside, behind, hbehind, h⟩ := h
  split_ifs at h with hends
  simp only [Option.some.injEq, Prod.mk.injEq] at h
  obtain ⟨rfl, rfl⟩ := h
  have hsuffix : ∃ front, text = front ++ behind := by
    obtain ⟨start, rfl, _⟩ := dropWord?_eq_some_iff.mp hinside
    obtain ⟨word, hword, _⟩ := dropWord?_eq_some_iff.mp hbehind
    refine ⟨start ++ inside.takeWhile isBlank ++ word, ?_⟩
    rw [List.append_assoc, List.append_assoc, ← hword, trimStart,
      List.takeWhile_append_dropWhile]
  obtain ⟨front, rfl⟩ := hsuffix
  refine ⟨⟨behind.dropWhile isDirectionChar, ?_⟩, ?_⟩
  · rw [take_length_sub, List.append_assoc, List.takeWhile_append_dropWhile]
  · intro hnil
    simp [hnil] at hends

/-- **Flipping gradients exchanges inert words**, from the point where the flip stands. -/
theorem reworded_flipGradientsFrom {skip : Nat} {text flipped : List Char}
    (h : flipGradientsFrom skip text = .ok flipped) : Reworded (text.drop skip) flipped := by
  induction text generalizing skip flipped with
  | nil =>
      obtain rfl := Except.ok.inj h
      rw [List.drop_nil]
      exact .nil
  | cons c cs ih =>
      rw [flipGradientsFrom] at h
      split_ifs at h with hskip
      · obtain ⟨k, rfl⟩ : ∃ k, skip = k + 1 := ⟨skip - 1, by omega⟩
        exact ih h
      · obtain rfl : skip = 0 := by omega
        split at h
        case h_1 head direction hgradient =>
            obtain ⟨turned, hturned, h⟩ := bind_eq_ok.mp h
            obtain ⟨rest, hrest, h⟩ := bind_eq_ok.mp h
            obtain rfl := pure_eq_ok.mp h
            obtain ⟨⟨behind, htext⟩, hne⟩ := exists_of_gradient? hgradient
            have hlength : (head ++ direction).length =
                head.length + direction.length - 1 + 1 := by
              have hpos := List.length_pos_iff.mpr hne
              rw [List.length_append]
              omega
            have hbehind : cs.drop (head.length + direction.length - 1) = behind := by
              have hdrop : (c :: cs).drop (head ++ direction).length = behind := by
                rw [htext, List.drop_left]
              rwa [hlength, List.drop_succ_cons] at hdrop
            rw [List.drop_zero, htext]
            exact ((reworded_flipWords hturned).keepAll head).append (hbehind ▸ ih hrest)
        case h_2 =>
            obtain ⟨rest, hrest, h⟩ := bind_eq_ok.mp h
            obtain rfl := pure_eq_ok.mp h
            exact .keep c (ih hrest)

theorem reworded_flipGradients {text flipped : List Char} (h : flipGradients text = .ok flipped) :
    Reworded text flipped :=
  reworded_flipGradientsFrom h

/-! ## Shadows -/

/-- Negating a component touches only signs in front of it. -/
lemma opensLike_negate (component : List Char) : OpensLike component (negate component) := by
  intro s t hs ht
  have hdash : ∀ rest, s.read ('-' :: rest) = s.read rest := by
    intro rest
    rw [Standing.read_cons, Standing.next?_inert_of_not_escaped rfl hs, Option.bind_some]
  unfold negate
  split_ifs
  · exact ⟨t, ht, .refl t⟩
  · split
    case h_1 rest _ =>
        rw [hdash rest] at ht
        exact ⟨t, ht, .refl t⟩
    case h_2 =>
        have hplus : Inert (component.takeWhile (· == '+')) := by
          intro c hc
          obtain rfl : c = '+' := by simpa using List.mem_takeWhile_imp hc
          rfl
        rw [← List.takeWhile_append_dropWhile (p := (· == '+')) (l := component),
          Standing.read_append, Standing.read_inert_of_not_escaped hplus hs,
          Option.bind_some] at ht
        exact ⟨t, (hdash _).trans ht, .refl t⟩

lemma respells_negateFirst (parts : List (List Char)) : Respells parts (negateFirst parts) := by
  induction parts with
  | nil => exact .nil
  | cons part parts ih =>
      rw [negateFirst]
      split_ifs
      · exact .keep (opensLike_negate part) (.refl parts)
      · exact .keep (.refl part) ih

lemma respells_flipShadow (parts : List (List Char)) : Respells parts (flipShadow parts) := by
  rw [flipShadow]
  split_ifs
  · exact respells_negateFirst parts
  · exact .refl parts

/-- **A list of shadows opens like the flipped one.** -/
theorem opensLike_flipShadows (text : List Char) : OpensLike text (flipShadows text) := by
  have hshadow : ∀ shadow, OpensLike shadow
      (joinWith ' ' (flipShadow (components [' '] shadow))) := fun shadow =>
    (opensLike_components rfl shadow).trans ((respells_flipShadow _).opensLike_joinWith rfl)
  exact (opensLike_components rfl text).trans
    ((respells_map hshadow _).opensLike_joinWith rfl)

/-! ## Values -/

/-- A cursor is as it was, or a constant. -/
lemma terminator?_flipCursor {text : List Char} (h : terminator? text = none) :
    terminator? (flipCursor text) = none := by
  have hconstant : ∀ pair ∈ cursors, terminator? pair.2.toList = none := by decide
  unfold flipCursor
  split
  case h_1 flipped hlookup => exact hconstant _ (mem_of_lookup_eq_some hlookup)
  case h_2 => exact h

lemma terminator?_flipBody {property : String} {body flipped : List Char}
    (h : terminator? body = none) (hflip : flipBody property body = .ok flipped) :
    terminator? flipped = none := by
  unfold flipBody at hflip
  split_ifs at hflip
  · obtain rfl := Except.ok.inj hflip
    exact (opensLike_flipShadows body).terminator?_eq_none h
  · obtain rfl := Except.ok.inj hflip
    exact terminator?_flipCursor h
  · exact (reworded_flipWords hflip).alike.opensLike.terminator?_eq_none h
  · exact (reworded_flipGradients hflip).alike.opensLike.terminator?_eq_none h

/-- A flipped value is the value itself, or its flipped body with its mark. -/
lemma flipValue_cases {property : String} {value flipped : List Char}
    (h : flipValue property value = .ok flipped) :
    flipped = value ∨ ∃ body, flipBody property (splitImportance value).1 = .ok body ∧
      flipped = attachImportance body (splitImportance value).2 := by
  obtain ⟨body, hbody, h⟩ := bind_eq_ok.mp h
  obtain rfl := pure_eq_ok.mp h
  split_ifs
  · exact Or.inl rfl
  · exact Or.inr ⟨body, hbody, rfl⟩

/-- **The flip of a safe value is safe**, for every property. -/
theorem terminator?_flipValue {property : String} {value flipped : List Char}
    (h : terminator? value = none) (hflip : flipValue property value = .ok flipped) :
    terminator? flipped = none := by
  rcases flipValue_cases hflip with rfl | ⟨body, hbody, rfl⟩
  · exact h
  · exact terminator?_attachImportance.mpr
      (terminator?_flipBody (terminator?_splitImportance.mpr h) hbody)

end AtomicStyle.Flip
