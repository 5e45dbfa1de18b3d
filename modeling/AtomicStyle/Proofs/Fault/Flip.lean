import AtomicStyle.Proofs.Direction.SafeFlip
import AtomicStyle.Text.LowerCase

/-!
# The faults of flipping a value

Side words are found in any case, and the case family of `i` has two letters outside ASCII.  A word
with one of them is found but has no opposite, so flipping the text is a fault.  This file shows that
flipping a value ends in no other fault.

**Words.**  Without those two letters the lower case of a side word is the word
(`lower_of_map_foldChar`), and the word has an opposite (`faultsIn_opposite`).

**Texts.**  `SideFault` says what the fault of a text is: some word that stands alone in it.  Which
texts are flipped by words depends on the property: the whole body of a position, and the
directions of the gradients of most others (`FlipsWordsOf`).
-/

namespace AtomicStyle.Flip

open Css Text

/-! ## Words -/

/-- The word spells `right` in some case, with one of the letters outside ASCII that stand
for `i`. -/
structure IsForeignRight (word : List Char) : Prop where
  fold : word.map foldChar = right
  foreign : 'ı' ∈ word ∨ 'İ' ∈ word

/-- The ASCII letters but `i`, `k` and `s` have no other character in their case family. -/
lemma toLower_of_foldChar {c d : Char} (h : foldChar c = d) (hdotless : c ≠ 'ı')
    (hdotted : c ≠ 'İ') (hd : d.toNat < 0x80) (hk : d ≠ 'k') (hs : d ≠ 's') :
    c.toNat < 0x80 ∧ c.toLower = d := by
  unfold foldChar at h
  split_ifs at h with hascii hi hlong hkelvin
  · exact ⟨hascii, h⟩
  · simp [hdotless, hdotted] at hi
  · exact absurd h.symm hs
  · exact absurd h.symm hk
  · exact absurd (h ▸ hd) hascii

/-- Without foreign letters the lower case of a side word is the word. -/
lemma lower_of_map_foldChar {word : List Char}
    (h : word.map foldChar = left ∨ word.map foldChar = right) (hdotless : 'ı' ∉ word)
    (hdotted : 'İ' ∉ word) : lower word = word.map foldChar := by
  have hside : (left ++ right).all (fun c => c.toNat < 0x80 ∧ c ≠ 'k' ∧ c ≠ 's') = true := by
    decide
  have hchar : ∀ c ∈ word, c.toNat < 0x80 ∧ c.toLower = foldChar c := by
    intro c hc
    have hfold : foldChar c ∈ left ++ right := by
      have hmem := List.mem_map_of_mem (f := foldChar) hc
      rcases h with h | h
      · exact List.mem_append_left right (h ▸ hmem)
      · exact List.mem_append_right left (h ▸ hmem)
    obtain ⟨hascii, hk, hs⟩ := of_decide_eq_true (List.all_eq_true.mp hside _ hfold)
    exact toLower_of_foldChar rfl (fun heq => hdotless (heq ▸ hc)) (fun heq => hdotted (heq ▸ hc))
      hascii hk hs
  rw [lower_of_ascii word fun c hc => (hchar c hc).1]
  exact List.map_congr_left fun c hc => (hchar c hc).2

/-- **A side word has an opposite** unless it has a foreign letter. -/
theorem faultsIn_opposite {word : List Char}
    (h : word.map foldChar = left ∨ word.map foldChar = right) :
    FaultsIn (fun f => IsForeignRight word ∧ f = .unknownSide (String.ofList (lower word)))
      (opposite word) := by
  unfold opposite
  dsimp only
  by_cases hforeign : 'ı' ∈ word ∨ 'İ' ∈ word
  · have hfold : word.map foldChar = right := by
      refine h.resolve_left fun hleft => ?_
      have hmem : 'i' ∈ left := by
        rcases hforeign with hc | hc <;> exact hleft ▸ List.mem_map_of_mem (f := foldChar) hc
      exact absurd hmem (by decide)
    split_ifs
    · exact .of_ok right
    · exact .of_ok left
    · exact .of_fault ⟨⟨hfold, hforeign⟩, rfl⟩
  · rw [not_or] at hforeign
    rw [lower_of_map_foldChar h hforeign.1 hforeign.2]
    rcases h with hleft | hright
    · rw [if_pos hleft]
      exact .of_ok right
    · rw [hright, if_neg (by decide), if_pos rfl]
      exact .of_ok left

/-! ## Texts -/

/-- The word stands in the text, and no word goes on across its ends. -/
def StandsAlone (word text : List Char) : Prop :=
  ∃ front behind, text = front ++ word ++ behind ∧ front.getLast?.any isWordChar = false ∧
    continues behind = false

/-- The fault of flipping the words of a text: a word that stands alone in it has no opposite. -/
def SideFault (text : List Char) (f : Fault) : Prop :=
  ∃ word, StandsAlone word text ∧ IsForeignRight word ∧
    f = .unknownSide (String.ofList (lower word))

/-- From the point where the flip stands, behind `front`. -/
lemma faultsIn_flipWordsFrom (front : List Char) (skip : Nat) (text : List Char) :
    FaultsIn (SideFault (front ++ text)) (flipWordsFrom front.getLast? skip text) := by
  induction text generalizing front skip with
  | nil => exact .of_ok []
  | cons c cs ih =>
      -- what is behind is met behind the front and the character
      have hrest : ∀ skip, FaultsIn (SideFault (front ++ c :: cs))
          (flipWordsFrom (some c) skip cs) := by
        intro skip
        have h := ih (front ++ [c]) skip
        rwa [List.getLast?_concat, List.append_assoc] at h
      rw [flipWordsFrom]
      split_ifs
      · exact hrest _
      · split
        case h_1 word hword =>
            obtain ⟨hbefore, hfold, rest, htext, hbehind⟩ := exists_of_sideWord? hword
            have hstands : StandsAlone word (front ++ c :: cs) :=
              ⟨front, rest, by rw [htext, List.append_assoc], hbefore, hbehind⟩
            refine ((faultsIn_opposite hfold).mono ?_).bind fun flipped _ =>
              (hrest _).bind_pure (flipped ++ ·)
            rintro f ⟨hforeign, rfl⟩
            exact ⟨word, hstands, hforeign, rfl⟩
        case h_2 => exact (hrest 0).bind_pure (c :: ·)

lemma faultsIn_flipWords (text : List Char) : FaultsIn (SideFault text) (flipWords text) :=
  faultsIn_flipWordsFrom [] 0 text

/-- The direction of a gradient in the text. -/
def HoldsDirection (text direction : List Char) : Prop :=
  ∃ front rest head, text = front ++ rest ∧ gradient? rest = some (head, direction)

/-- From the point where the flip stands, behind `front`. -/
lemma faultsIn_flipGradientsFrom (front : List Char) (skip : Nat) (text : List Char) :
    FaultsIn (fun f => ∃ direction, HoldsDirection (front ++ text) direction ∧
      SideFault direction f) (flipGradientsFrom skip text) := by
  induction text generalizing front skip with
  | nil => exact .of_ok []
  | cons c cs ih =>
      have hrest : ∀ skip, FaultsIn (fun f => ∃ direction,
          HoldsDirection (front ++ c :: cs) direction ∧ SideFault direction f)
            (flipGradientsFrom skip cs) := by
        intro skip
        have h := ih (front ++ [c]) skip
        rwa [List.append_assoc] at h
      rw [flipGradientsFrom]
      split_ifs
      · exact hrest _
      · split
        case h_1 head direction hgradient =>
            refine ((faultsIn_flipWords direction).mono ?_).bind fun flipped _ =>
              (hrest _).bind_pure (head ++ flipped ++ ·)
            intro f hf
            exact ⟨direction, ⟨front, c :: cs, head, rfl, hgradient⟩, hf⟩
        case h_2 => exact (hrest 0).bind_pure (c :: ·)

/-- The texts in which flipping a body exchanges side words: all of a position, and the directions
of gradients where no other flip is made. -/
inductive FlipsWordsOf (property : String) (body : List Char) : List Char → Prop
  | position (h : takesPosition property = true) : FlipsWordsOf property body body
  | gradient {direction : List Char} (hshadows : takesShadows property = false)
      (hcursor : property ≠ "cursor") (hposition : takesPosition property = false)
      (h : HoldsDirection body direction) : FlipsWordsOf property body direction

lemma faultsIn_flipBody (property : String) (body : List Char) :
    FaultsIn (fun f => ∃ text, FlipsWordsOf property body text ∧ SideFault text f)
      (flipBody property body) := by
  unfold flipBody
  split_ifs with hshadows hcursor hposition
  · exact .of_ok _
  · exact .of_ok _
  · exact (faultsIn_flipWords body).mono fun f hf => ⟨body, .position hposition, hf⟩
  · refine (faultsIn_flipGradientsFrom [] 0 body).mono ?_
    rintro f ⟨direction, hdirection, hf⟩
    exact ⟨direction, .gradient (Bool.eq_false_iff.mpr hshadows) hcursor
      (Bool.eq_false_iff.mpr hposition) hdirection, hf⟩

/-- **Flipping a value ends in no fault but those of side words** in its body. -/
theorem faultsIn_flipValue (property : String) (value : List Char) :
    FaultsIn (fun f => ∃ text, FlipsWordsOf property (splitImportance value).1 text ∧
      SideFault text f) (flipValue property value) :=
  (faultsIn_flipBody property _).bind_pure _

end AtomicStyle.Flip
