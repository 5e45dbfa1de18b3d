import AtomicStyle.Proofs.Rule.Decoding

/-!
# Names and digests

What is in a name?  The prefix that the settings ask for, a numeral, and behind a dash a letter for
the kind of the rule.

**Reading back.**  The prefix may hold dashes and what looks like a numeral, so a name is not cut at
its dashes.  It is cut from both ends: the prefix is one and the same, and the dash and the letter
are the last two characters.  What is left is a numeral, which is read back
(`murmur_eq_of_identifier_eq`).

**Names.**  So two names under one prefix are the same exactly if the rules are of one kind and the
digests of their texts are the same.
-/

namespace AtomicStyle

lemma Category.letter_injective : Function.Injective Category.letter := by
  intro a b h
  cases a <;> cases b <;> first | rfl | exact absurd h (by decide)

/-- The kind of a rule is the last character of its name. -/
lemma getLast?_identifier (category : Category) (text front : String) :
    (identifier category text front).toList.getLast? = some category.letter := by
  simp [identifier]

/-- A valid prefix begins with a letter, and so does a name. -/
lemma head?_identifier (category : Category) (text : String) (p : ClassPrefix) :
    ∃ c, (identifier category text p.text).toList.head? = some c ∧ Text.isLetter c = true := by
  obtain ⟨front, hvalid⟩ := p
  cases hfront : front.toList with
  | nil =>
      rw [hfront] at hvalid
      exact absurd hvalid (by decide)
  | cons c cs =>
      rw [hfront, isClassPrefix, Bool.and_eq_true] at hvalid
      refine ⟨c, ?_, hvalid.1⟩
      simp [identifier, hfront]

/-- **A name tells the kind of the rule and the digest of its text, and nothing else.**  It begins
with a letter and holds letters, numerals, dashes and underscores only. -/
theorem identifier_eq_iff (p : ClassPrefix) (c₁ c₂ : Category) (t₁ t₂ : String) :
    (identifier c₁ t₁ p.text = identifier c₂ t₂ p.text ↔
        c₁ = c₂ ∧ Murmur.murmur digestSeed (hashedBytes t₁) =
          Murmur.murmur digestSeed (hashedBytes t₂)) ∧
      (∃ c, (identifier c₁ t₁ p.text).toList.head? = some c ∧ Text.isLetter c = true) ∧
      ∀ c ∈ (identifier c₁ t₁ p.text).toList, isIdentifierChar c = true := by
  refine ⟨⟨fun h => ?_, ?_⟩, head?_identifier c₁ t₁ p,
    fun c hc => isIdentifierChar_of_mem_identifier hc⟩
  · have hlast := congrArg (fun name : String => name.toList.getLast?) h
    rw [getLast?_identifier, getLast?_identifier] at hlast
    obtain rfl := Category.letter_injective (Option.some.inj hlast)
    exact ⟨rfl, murmur_eq_of_identifier_eq h⟩
  · rintro ⟨rfl, hdigest⟩
    have htexts : digestText (digestTag ++ t₁) = digestText (digestTag ++ t₂) :=
      congrArg (fun digest : UInt32 => Numeral.base36 digest.toNat) hdigest
    rw [identifier, identifier, htexts]

end AtomicStyle
