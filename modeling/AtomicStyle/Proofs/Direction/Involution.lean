import AtomicStyle.Proofs.Direction.Negation

/-!
# Flipping a value twice

A value made for the other direction may itself be flipped.  Does it come back?

**Families.**  Words and gradients come back as they were, and so do cursors, whose table holds each
direction with its opposite (`flipCursor_flipCursor`).  A list of shadows comes back respaced.

**Values.**  The mark of a value is put back in one spelling.  So a plain value in that spelling
comes back, if it is no list of shadows or a respaced one without a plus (`flipValue_flipValue`).
-/

namespace AtomicStyle.Flip

open Css Text

/-- **The cursors are in pairs.** -/
theorem flipCursor_flipCursor {text : List Char} (h : IsPlain text) :
    flipCursor (flipCursor text) = text ∧ BesideMark text (flipCursor text) := by
  have hpairs : ∀ pair ∈ cursors, flipCursor pair.2.toList = pair.1.toList ∧
      IsForeign pair.1.toList ∧ IsForeign pair.2.toList := by decide +kernel
  have hlower : lower text = text := by
    rw [lower_of_ascii text fun c hc => (h c hc).1]
    exact (List.map_congr_left fun c hc => toLower_of_not_isUpper (h c hc).2).trans (List.map_id _)
  cases hlookup : cursors.lookup (String.ofList text) with
  | none =>
      have hsame : flipCursor text = text := by rw [flipCursor, hlower, hlookup]
      rw [hsame, hsame]
      exact ⟨rfl, .refl text⟩
  | some flipped =>
      have hflip : flipCursor text = flipped.toList := by rw [flipCursor, hlower, hlookup]
      obtain ⟨hback, hword, hother⟩ := hpairs _ (mem_of_lookup_eq_some hlookup)
      rw [String.toList_ofList] at hback hword
      rw [hflip]
      refine ⟨hback, ?_⟩
      have hmark := BesideMark.exchange hword hother .nil
      rwa [List.append_nil, List.append_nil] at hmark

/-- **A plain body comes back**, if it is no list of shadows or a respaced one without a plus. -/
theorem exists_flipBody {property : String} {body : List Char} (hplain : IsPlain body)
    (hshadows : takesShadows property = true → HasNoPlus body ∧ respace body = body) :
    ∃ flipped, flipBody property body = .ok flipped ∧ flipBody property flipped = .ok body ∧
      BesideMark body flipped := by
  unfold flipBody
  split_ifs with hshadow hcursor hposition
  · obtain ⟨hplus, hrespace⟩ := hshadows hshadow
    obtain ⟨htwice, hmark⟩ := flipShadows_flipShadows hplain hplus
    rw [hrespace] at htwice hmark
    exact ⟨_, rfl, congrArg Except.ok htwice, hmark⟩
  · obtain ⟨htwice, hmark⟩ := flipCursor_flipCursor hplain
    exact ⟨_, rfl, congrArg Except.ok htwice, hmark⟩
  · obtain ⟨flipped, hflipped⟩ := exists_wordsFlipped hplain none
    exact ⟨flipped, hflipped.flip, hflipped.symm.flip, hflipped.besideMark⟩
  · obtain ⟨flipped, hflipped⟩ := exists_gradientsFlipped hplain
    exact ⟨flipped, hflipped.flip, hflipped.symm.flip, hflipped.besideMark⟩

/-- A mark in the canonical spelling is put back as it was. -/
lemma attachImportance_splitImportance {value : List Char}
    (h : value = (splitImportance value).1 ∨
      value = (splitImportance value).1 ++ ' ' :: importantMark) :
    attachImportance (splitImportance value).1 (splitImportance value).2 = value := by
  rcases splitImportance_cases value with ⟨mark, hvalue, hmark, _, himportant⟩ | ⟨hsplit, _⟩
  · rw [himportant]
    rcases h with hplain | hcanonical
    · -- a value that ends in a mark is longer than its body
      rw [← hplain] at hvalue
      obtain rfl : mark = [] := List.append_right_eq_self.mp hvalue.symm
      exact absurd hmark (by decide)
    · exact hcanonical.symm
  · rw [hsplit, attachImportance_false]

/-- **Flipping a value twice gives the value back.**  The value is of ASCII without capitals, and
its importance mark, if it has one, is spelled in the canonical way.  In a list of shadows no component
begins with a plus, and cutting and joining the list makes no difference. -/
theorem flipValue_flipValue {property : String} {value : List Char} (hascii : IsAscii value)
    (hcapitals : ∀ c ∈ value, c.isUpper = false)
    (hmark : value = (splitImportance value).1 ∨
      value = (splitImportance value).1 ++ ' ' :: importantMark)
    (hshadows : takesShadows property = true → HasNoPlus (splitImportance value).1 ∧
      respace (splitImportance value).1 = (splitImportance value).1) :
    ∃ flipped, flipValue property value = .ok flipped ∧
      flipValue property flipped = .ok value := by
  have hattach := attachImportance_splitImportance hmark
  have hplain : IsPlain (splitImportance value).1 := by
    obtain ⟨mark, hvalue, _⟩ := exists_splitImportance_append value
    intro c hc
    have hmem : c ∈ value := hvalue ▸ List.mem_append_left mark hc
    exact ⟨hascii c hmem, hcapitals c hmem⟩
  obtain ⟨flipped, hflip, hback, hbeside⟩ := exists_flipBody hplain hshadows
  by_cases hsame : flipped = (splitImportance value).1
  · have hstays : flipValue property value = .ok value := by
      rw [flipValue_eq, hflip]
      exact congrArg Except.ok (if_pos hsame)
    exact ⟨value, hstays, hstays⟩
  · refine ⟨attachImportance flipped (splitImportance value).2, ?_, ?_⟩
    · rw [flipValue_eq, hflip]
      exact congrArg Except.ok (if_neg hsame)
    · rw [flipValue_eq, hbeside.splitImportance]
      dsimp only
      rw [hback]
      exact congrArg Except.ok ((if_neg (Ne.symm hsame)).trans hattach)

/-- Two shadows with a mark, the second without a direction; and two gradients, the second with a
side word behind its direction. -/
theorem flipValue_flipValue_of_shadows_and_gradients :
    (flipValue "box-shadow" "-1px 2px rgba(0, 0, 0),0 0 3px red !important".toList =
        .ok "1px 2px rgba(0, 0, 0),0 0 3px red !important".toList ∧
      flipValue "box-shadow" "1px 2px rgba(0, 0, 0),0 0 3px red !important".toList =
        .ok "-1px 2px rgba(0, 0, 0),0 0 3px red !important".toList) ∧
    flipValue "background" "linear-gradient( to right, red),linear-gradient(to left, left)".toList =
        .ok "linear-gradient( to left, red),linear-gradient(to right, left)".toList ∧
      flipValue "background"
          "linear-gradient( to left, red),linear-gradient(to right, left)".toList =
        .ok "linear-gradient( to right, red),linear-gradient(to left, left)".toList := by
  have hshadows : flipValue "box-shadow" "-1px 2px rgba(0, 0, 0),0 0 3px red !important".toList =
      .ok "1px 2px rgba(0, 0, 0),0 0 3px red !important".toList :=
    eq_ok_of_toOption (by decide +kernel)
  have hgradients : flipValue "background"
        "linear-gradient( to right, red),linear-gradient(to left, left)".toList =
      .ok "linear-gradient( to left, red),linear-gradient(to right, left)".toList :=
    eq_ok_of_toOption (by decide +kernel)
  obtain ⟨flipped, hflip, hback⟩ := @flipValue_flipValue "box-shadow"
    "-1px 2px rgba(0, 0, 0),0 0 3px red !important".toList (by decide +kernel)
    (List.forall_iff_forall_mem.mp (by decide +kernel)) (.inr (by decide +kernel))
    fun _ => by decide +kernel
  obtain ⟨flipped', hflip', hback'⟩ := @flipValue_flipValue "background"
    "linear-gradient( to right, red),linear-gradient(to left, left)".toList (by decide +kernel)
    (List.forall_iff_forall_mem.mp (by decide +kernel)) (.inl (by decide +kernel))
    fun h => absurd h (by decide)
  obtain rfl := Except.ok.inj (hflip.symm.trans hshadows)
  obtain rfl := Except.ok.inj (hflip'.symm.trans hgradients)
  exact ⟨⟨hshadows, hback⟩, hgradients, hback'⟩

end AtomicStyle.Flip
