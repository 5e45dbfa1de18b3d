import AtomicStyle.Proofs.Css.Standing

/-!
# Cutting a text at its terminators

Emitted declarations are separated by nothing but the semicolon behind each.  A reader who cuts
the text at the first terminator, and what is left at the next one, gets the declarations back as
long as each of them is settled.

**One cut.**  `cutFirst?` cuts at the first terminator if that is a semicolon.  Behind a settled
text it finds the semicolon that stands there (`cutFirst?_append`).  Behind a text that ends in an
open escape it does not: the semicolon is escaped (`ne_of_cutFirst?_of_endsInEscape`).  So safe
texts are told apart by what they begin, if none of them goes on behind an open escape
(`eq_of_append_terminator`).

**All cuts.**  `cutAll?` repeats the cut until nothing is left over.  `cutAll?_terminated_iff`
says which safe texts, each with a semicolon behind it, are cut apart again: those that end in no
open escape.
-/

namespace AtomicStyle.Css

/-! ## One cut -/

/-- The text in front of the first terminator and the text behind it, if the terminator is a
semicolon. -/
def cutFirst? (text : List Char) : Option (List Char × List Char) :=
  match terminator? text with
  | none => none
  | some i => if text[i]? = some ';' then some (text.take i, text.drop (i + 1)) else none

lemma cutFirst?_eq_some_iff {text piece rest : List Char} :
    cutFirst? text = some (piece, rest) ↔
      ∃ i, terminator? text = some i ∧ text[i]? = some ';' ∧
        text.take i = piece ∧ text.drop (i + 1) = rest := by
  unfold cutFirst?
  cases terminator? text with
  | none => simp
  | some i => simp

lemma length_lt_of_cutFirst? {text piece rest : List Char}
    (h : cutFirst? text = some (piece, rest)) : rest.length < text.length := by
  obtain ⟨i, _, hi, _, rfl⟩ := cutFirst?_eq_some_iff.mp h
  obtain ⟨hlt, _⟩ := List.getElem?_eq_some_iff.mp hi
  rw [List.length_drop]
  omega

/-- Behind a settled text the cut is made at the semicolon that stands there. -/
theorem cutFirst?_append {a : List Char} (h : Settled a) (b : List Char) :
    cutFirst? (a ++ ';' :: b) = some (a, b) := by
  refine cutFirst?_eq_some_iff.mpr ⟨a.length, terminator?_append_semicolon h b, ?_, ?_, ?_⟩
  · simp
  · simp
  · rw [← List.drop_drop, List.drop_left, List.drop_one, List.tail_cons]

/-- A semicolon uses up an open escape, and all is settled behind it. -/
lemma settled_append_semicolon {a : List Char} (ha : terminator? a = none)
    (hescape : endsInEscape a = true) : Settled (a ++ [';']) := by
  obtain ⟨⟨depth, quote, escaped⟩, hread, hdepth, hquote⟩ := terminator?_eq_none_iff.mp ha
  obtain rfl : depth = 0 := hdepth
  obtain rfl : quote = none := hquote
  obtain rfl : escaped = true := (Standing.escaped_read rfl hread).trans hescape
  rw [Settled, Standing.read_append, hread]
  rfl

/-- **Behind an open escape the semicolon is not found**: a cut, if there is one, is made further
on. -/
theorem ne_of_cutFirst?_of_endsInEscape {a b piece rest : List Char} (ha : terminator? a = none)
    (hescape : endsInEscape a = true) (h : cutFirst? (a ++ ';' :: b) = some (piece, rest)) :
    piece ≠ a := by
  rintro rfl
  obtain ⟨i, hi, hsome, htake, _⟩ := cutFirst?_eq_some_iff.mp h
  rw [← List.singleton_append, ← List.append_assoc,
    terminator?_append (settled_append_semicolon ha hescape)] at hi
  obtain ⟨j, _, hj⟩ := Option.map_eq_some_iff.mp hi
  rw [List.length_append, List.length_singleton] at hj
  obtain ⟨hlt, _⟩ := List.getElem?_eq_some_iff.mp hsome
  have hlength := congrArg List.length htake
  rw [List.length_take] at hlength
  omega

/-- In front of a last semicolon an open escape is told apart from a settled text. -/
lemma endsInEscape_of_append_semicolon {a b y : List Char} (ha : terminator? a = none)
    (hb : terminator? b = none) (hescape : endsInEscape a = true)
    (h : a ++ [';'] = b ++ ';' :: y) : endsInEscape b = true := by
  by_contra hopen
  have hsettled : Settled b := settled_iff.mpr ⟨hb, Bool.eq_false_iff.mpr hopen⟩
  have hnone : terminator? (a ++ [';']) = none :=
    (settled_iff.mp (settled_append_semicolon ha hescape)).1
  rw [h, terminator?_append_semicolon hsettled] at hnone
  exact Option.some_ne_none _ hnone

/-- **Safe texts are told apart in front of a semicolon**, unless one of them ends in an open escape
and something stands behind the semicolon. -/
theorem eq_of_append_terminator {a b x y : List Char} (ha : terminator? a = none)
    (hb : terminator? b = none) (hx : x = [] ∨ endsInEscape a = false)
    (hy : y = [] ∨ endsInEscape b = false) (h : a ++ ';' :: x = b ++ ';' :: y) :
    a = b ∧ x = y := by
  by_cases ha' : endsInEscape a = true
  · -- the escape is in front of the last semicolon, so there is one on the other side as well
    obtain rfl : x = [] := hx.resolve_right (by simp [ha'])
    have hb' : endsInEscape b = true := endsInEscape_of_append_semicolon ha hb ha' h
    obtain rfl : y = [] := hy.resolve_right (by simp [hb'])
    exact ⟨List.append_cancel_right h, rfl⟩
  · have hb' : endsInEscape b = false := by
      refine Bool.eq_false_iff.mpr fun hb' => ha' ?_
      obtain rfl : y = [] := hy.resolve_right (by simp [hb'])
      exact endsInEscape_of_append_semicolon hb ha hb' h.symm
    have hcut := cutFirst?_append (settled_iff.mpr ⟨ha, Bool.eq_false_iff.mpr ha'⟩) x
    rw [h, cutFirst?_append (settled_iff.mpr ⟨hb, hb'⟩)] at hcut
    obtain ⟨rfl, rfl⟩ := Prod.mk.inj (Option.some.inj hcut)
    exact ⟨rfl, rfl⟩

/-! ## All cuts -/

/-- The pieces that a text is cut into at its terminators, if each terminator is a semicolon and
nothing is left over behind the last one. -/
def cutAll? (text : List Char) : Option (List (List Char)) :=
  if text = [] then some []
  else
    match _h : cutFirst? text with
    | none => none
    | some (piece, rest) => (cutAll? rest).map (piece :: ·)
termination_by text.length
decreasing_by exact length_lt_of_cutFirst? _h

@[simp] lemma cutAll?_nil : cutAll? [] = some [] := by
  rw [cutAll?, if_pos rfl]

lemma cutAll?_of_cutFirst? {text : List Char} (h : text ≠ []) :
    cutAll? text = (cutFirst? text).bind fun (piece, rest) => (cutAll? rest).map (piece :: ·) := by
  rw [cutAll?, if_neg h]
  split
  case h_1 hnone => rw [hnone]; rfl
  case h_2 hsome => rw [hsome]; rfl

/-- Each of some texts with a semicolon behind it. -/
def terminated (texts : List (List Char)) : List Char :=
  texts.flatMap fun text => text ++ [';']

lemma terminated_cons (text : List Char) (texts : List (List Char)) :
    terminated (text :: texts) = text ++ ';' :: terminated texts := by
  rw [terminated, List.flatMap_cons, List.append_assoc]
  rfl

/-- **Safe texts, each with a semicolon behind it, are cut apart again exactly when none of them
ends in an open escape.** -/
theorem cutAll?_terminated_iff {texts : List (List Char)}
    (hsafe : ∀ text ∈ texts, terminator? text = none) :
    cutAll? (terminated texts) = some texts ↔ ∀ text ∈ texts, endsInEscape text = false := by
  induction texts with
  | nil => simp [terminated]
  | cons a texts ih =>
      obtain ⟨ha, hsafe⟩ := List.forall_mem_cons.mp hsafe
      rw [List.forall_mem_cons, ← ih hsafe, terminated_cons, cutAll?_of_cutFirst? (by simp)]
      cases hescape : endsInEscape a with
      | false =>
          rw [cutFirst?_append (settled_iff.mpr ⟨ha, hescape⟩), Option.bind_some]
          simp
      | true =>
          simp only [reduceCtorEq, false_and, iff_false]
          intro h
          obtain ⟨⟨piece, rest⟩, hcut, h⟩ := Option.bind_eq_some_iff.mp h
          obtain ⟨pieces, _, hpieces⟩ := Option.map_eq_some_iff.mp h
          exact ne_of_cutFirst?_of_endsInEscape ha hescape hcut (List.cons.inj hpieces).1

end AtomicStyle.Css
