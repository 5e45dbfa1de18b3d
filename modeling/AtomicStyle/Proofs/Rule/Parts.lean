import AtomicStyle.Proofs.Number.Numeral
import AtomicStyle.Proofs.Outcome
import AtomicStyle.Rule

/-!
# The parts of a rule

What is put around the declarations of a rule: its identifier and its context.

**Identifiers.**  The prefix that the settings ask for is valid, and the rest is a digest in base 36
with a letter for the kind of the rule.  So an identifier holds letters, numerals, dashes and
underscores only (`isIdentifierChar_of_mem_identifier`).

**Contexts.**  `Context.tidy_eq_ok` says which contexts are accepted, and in which spelling.
-/

namespace AtomicStyle

/-! ## Identifiers -/

/-- Whether the character may stand in an identifier: a letter, a numeral, a dash or an
underscore. -/
def isIdentifierChar (c : Char) : Bool :=
  c == '-' || c == '_' || Text.isAlphanumeric c

lemma isIdentifierChar_of_mem_classPrefix {p : ClassPrefix} {c : Char} (h : c ∈ p.text.toList) :
    isIdentifierChar c = true := by
  obtain ⟨text, hvalid⟩ := p
  cases htext : text.toList with
  | nil =>
      rw [htext] at h
      exact absurd h List.not_mem_nil
  | cons d ds =>
      rw [htext] at h
      rw [htext, isClassPrefix, Bool.and_eq_true] at hvalid
      exact List.all_eq_true.mp hvalid.2 c h

lemma isIdentifierChar_of_mem_base36 {n : Nat} {c : Char} (h : c ∈ Numeral.base36 n) :
    isIdentifierChar c = true := by
  have hdigit : ∀ d < 36, isIdentifierChar (Numeral.digitChar d) = true := by decide
  obtain ⟨d, hd, rfl⟩ := Numeral.exists_digit_of_mem_encode (by omega) h
  exact hdigit d hd

/-- **An identifier holds letters, numerals, dashes and underscores only**, whatever valid prefix
the settings ask for. -/
theorem isIdentifierChar_of_mem_identifier {category : Category} {text : String} {p : ClassPrefix}
    {c : Char} (h : c ∈ (identifier category text p.text).toList) : isIdentifierChar c = true := by
  have hletter : isIdentifierChar category.letter = true := by cases category <;> rfl
  simp only [identifier, String.toList_ofList, List.mem_append, List.mem_cons, List.not_mem_nil,
    or_false] at h
  rcases h with (h | h) | rfl | rfl
  · exact isIdentifierChar_of_mem_classPrefix h
  · exact isIdentifierChar_of_mem_base36 h
  · rfl
  · exact hletter

/-! ## Contexts -/

/-- **A context is accepted in its canonical spelling if each condition begins with its mark
there.** -/
theorem Context.tidy_eq_ok {context tidied : Context} :
    context.tidy = .ok tidied ↔
      tidied = ⟨context.pseudos.map tidyText, context.atRules.map tidyText⟩ ∧
        (∀ p ∈ tidied.pseudos, p.toList.head? = some ':') ∧
          ∀ a ∈ tidied.atRules, a.toList.head? = some '@' := by
  have hfind : ∀ mark (texts : List String),
      texts.find? (fun text => !beginsWith mark text) = none ↔
        ∀ text ∈ texts, text.toList.head? = some mark := by
    intro mark texts
    simp [beginsWith]
  unfold Context.tidy
  dsimp only
  cases hpseudo : (context.pseudos.map tidyText).find? fun p => !beginsWith ':' p with
  | some pseudo =>
      refine iff_of_false (reject_ne_ok _ _) ?_
      rintro ⟨rfl, hpseudos, _⟩
      rw [(hfind _ _).mpr hpseudos] at hpseudo
      cases hpseudo
  | none =>
      cases hrule : (context.atRules.map tidyText).find? fun a => !beginsWith '@' a with
      | some atRule =>
          refine iff_of_false (reject_ne_ok _ _) ?_
          rintro ⟨rfl, _, hrules⟩
          rw [(hfind _ _).mpr hrules] at hrule
          cases hrule
      | none =>
          refine pure_eq_ok.trans ⟨?_, fun h => h.1.symm⟩
          rintro rfl
          exact ⟨rfl, (hfind _ _).mp hpseudo, (hfind _ _).mp hrule⟩

end AtomicStyle
