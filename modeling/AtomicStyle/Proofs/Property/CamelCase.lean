import AtomicStyle.Proofs.Property.CanonicalName
import AtomicStyle.Rule

/-!
# Camel case and dashes

A name that consists of words may be written in camel case or with dashes between the words.

**Words.**  A dash is inserted in front of a capital only where a small letter is before it, so a
word of one letter hides the boundary behind it: its capital is all there is of it.  That does no
harm to the last word, nor to a first word that is written small (`insertDashes_flatMap`).

**Names.**  So the two spellings have one canonical spelling (`dashedChars_camelCase`), and with a
capital in front the name gets the dash of a vendor name (`dashedChars_pascalCase`).

**Styles.**  An entry is resolved by the canonical spelling of its key, which is quoted as it was
written only where it is refused (`refines_resolve_of_dashed_eq`).  So styles that spell their keys
in different ways resolve to the same declarations and compile to the same rule.
-/

namespace AtomicStyle

open Property

/-! ## Words -/

/-- A word of a name: small ASCII letters, at least one. -/
structure IsWord (word : List Char) : Prop where
  ne_nil : word ≠ []
  small : ∀ c ∈ word, 'a' ≤ c ∧ c ≤ 'z'

/-- Each letter is looked at once, so that a text can be checked for being a word. -/
lemma isWord_iff {word : List Char} :
    IsWord word ↔ word ≠ [] ∧ (word.all fun c => decide ('a' ≤ c ∧ c ≤ 'z')) = true := by
  simp only [List.all_eq_true, decide_eq_true_eq]
  exact ⟨fun h => ⟨h.ne_nil, h.small⟩, fun h => ⟨h.1, h.2⟩⟩

instance (word : List Char) : Decidable (IsWord word) :=
  decidable_of_iff _ isWord_iff.symm

/-- The word with a capital in front. -/
def capitalized : List Char → List Char
  | [] => []
  | c :: cs => c.toUpper :: cs

/-- The words without anything between them, all but the first one capitalized. -/
def camelCase : List (List Char) → List Char
  | [] => []
  | word :: words => word ++ words.flatMap capitalized

/-- The words without anything between them, all of them capitalized. -/
def pascalCase (words : List (List Char)) : List Char :=
  words.flatMap capitalized

/-- The words with a dash between them. -/
def dashCase (words : List (List Char)) : List Char :=
  Text.joinWith '-' words

/-- The words make up a name in which camel case shows where each begins: there is a word, and one
between two others has two letters. -/
structure IsCompound (words : List (List Char)) : Prop where
  ne_nil : words ≠ []
  isWord : ∀ word ∈ words, IsWord word
  inner : ∀ word ∈ words.tail.dropLast, 2 ≤ word.length

lemma isCompound_iff {words : List (List Char)} :
    IsCompound words ↔ words ≠ [] ∧ (∀ word ∈ words, IsWord word) ∧
      ∀ word ∈ words.tail.dropLast, 2 ≤ word.length :=
  ⟨fun h => ⟨h.ne_nil, h.isWord, h.inner⟩, fun h => ⟨h.1, h.2.1, h.2.2⟩⟩

instance (words : List (List Char)) : Decidable (IsCompound words) :=
  decidable_of_iff _ isCompound_iff.symm

/-- A capital at the front does not hide where the second word begins: the first word has two
letters, or there is no second one. -/
def IsCapitalizable (words : List (List Char)) : Prop :=
  (∀ word ∈ words.head?, 2 ≤ word.length) ∨ words.length = 1

lemma beginsWord_of_small {c : Char} (h : 'a' ≤ c ∧ c ≤ 'z') : beginsWord (some c) = true := by
  simp [beginsWord, h.1, h.2]

lemma lt_of_small {c : Char} (h : 'a' ≤ c ∧ c ≤ 'z') : c.toNat < 0x80 :=
  Nat.lt_of_le_of_lt (UInt32.le_iff_toNat_le.mp h.2) (by decide)

/-- What is asked of a small letter and its capital. -/
lemma letter_of_small {c : Char} (h : 'a' ≤ c ∧ c ≤ 'z') :
    c.isUpper = false ∧ c.toUpper.isUpper = true ∧ c.toUpper.toNat < 0x80 ∧
      c.toLower = c ∧ c.toUpper.toLower = c := by
  have hall : ∀ c : Char, c.toNat < 0x80 → ('a' ≤ c ∧ c ≤ 'z') → c.isUpper = false ∧
      c.toUpper.isUpper = true ∧ c.toUpper.toNat < 0x80 ∧ c.toLower = c ∧ c.toUpper.toLower = c :=
    forall_ascii (by decide)
  exact hall c (lt_of_small h) h

/-- Behind a small letter a word may begin as at the start of the name. -/
lemma insertDashes_of_beginsWord {before : Option Char} (h : beginsWord before = true)
    (name : List Char) : insertDashes before name = insertDashes none name := by
  have hnone : beginsWord none = true := rfl
  cases name with
  | nil => rfl
  | cons c cs => rw [insertDashes, insertDashes, h, hnone]

/-- Small letters stay as they are, and behind them a word may begin. -/
lemma insertDashes_append {letters : List Char} (hsmall : ∀ c ∈ letters, 'a' ≤ c ∧ c ≤ 'z')
    {before : Option Char} (h : letters ≠ [] ∨ beginsWord before = true) (rest : List Char) :
    insertDashes before (letters ++ rest) = letters ++ insertDashes none rest := by
  induction letters generalizing before with
  | nil => exact insertDashes_of_beginsWord (h.resolve_left fun hne => hne rfl) rest
  | cons c cs ih =>
      obtain ⟨hc, hcs⟩ := List.forall_mem_cons.mp hsmall
      have hstep : insertDashes before (c :: cs ++ rest) =
          c :: insertDashes (some c) (cs ++ rest) := by
        rw [List.cons_append, insertDashes, (letter_of_small hc).1]
        rfl
      rw [hstep, ih hcs (Or.inr (beginsWord_of_small hc)), List.cons_append]

/-- A capital at the start gets a dash, and behind its word another word may begin, if the word goes
on or is the last one. -/
lemma insertDashes_capitalized {word : List Char} (h : IsWord word) {rest : List Char}
    (hrest : 2 ≤ word.length ∨ rest = []) :
    insertDashes none (capitalized word ++ rest) =
      '-' :: capitalized word ++ insertDashes none rest := by
  cases word with
  | nil => exact absurd rfl h.ne_nil
  | cons c cs =>
      obtain ⟨hc, hcs⟩ := List.forall_mem_cons.mp h.small
      have hstep : insertDashes none (capitalized (c :: cs) ++ rest) =
          '-' :: c.toUpper :: insertDashes (some c.toUpper) (cs ++ rest) := by
        rw [capitalized, List.cons_append, insertDashes, (letter_of_small hc).2.1]
        rfl
      rw [hstep, capitalized, List.cons_append, List.cons_append]
      by_cases hne : cs = []
      · obtain rfl : rest = [] := hrest.resolve_left fun hlong => by simp [hne] at hlong
        rw [hne]
        rfl
      · rw [insertDashes_append hcs (Or.inl hne)]

/-- **Each capitalized word gets a dash**, if all but the last one have two letters. -/
theorem insertDashes_flatMap {words : List (List Char)} (h : ∀ word ∈ words, IsWord word)
    (hlong : ∀ word ∈ words.dropLast, 2 ≤ word.length) :
    insertDashes none (words.flatMap capitalized) =
      words.flatMap fun word => '-' :: capitalized word := by
  induction words with
  | nil => rfl
  | cons word words ih =>
      obtain ⟨hword, hwords⟩ := List.forall_mem_cons.mp h
      rw [List.flatMap_cons, List.flatMap_cons]
      cases words with
      | nil => exact insertDashes_capitalized hword (Or.inr rfl)
      | cons next rest =>
          rw [List.dropLast_cons_cons] at hlong
          obtain ⟨hlength, hlong⟩ := List.forall_mem_cons.mp hlong
          rw [insertDashes_capitalized hword (Or.inl hlength), ih hwords hlong]

/-! ## Names -/

lemma isAscii_flatMap_capitalized {words : List (List Char)} (h : ∀ word ∈ words, IsWord word) :
    IsAscii (words.flatMap capitalized) := by
  intro d hd
  obtain ⟨word, hmem, hd⟩ := List.mem_flatMap.mp hd
  have hword := (h word hmem).small
  cases word with
  | nil => exact absurd hd List.not_mem_nil
  | cons c cs =>
      obtain ⟨hc, hcs⟩ := List.forall_mem_cons.mp hword
      rcases List.mem_cons.mp hd with rfl | hd
      · exact (letter_of_small hc).2.2.1
      · exact lt_of_small (hcs d hd)

lemma map_toLower_of_small {letters : List Char} (h : ∀ c ∈ letters, 'a' ≤ c ∧ c ≤ 'z') :
    letters.map Char.toLower = letters := by
  rw [List.map_congr_left fun c hc => (letter_of_small (h c hc)).2.2.2.1, List.map_id']

lemma map_toLower_capitalized {word : List Char} (h : IsWord word) :
    (capitalized word).map Char.toLower = word := by
  cases word with
  | nil => rfl
  | cons c cs =>
      obtain ⟨hc, hcs⟩ := List.forall_mem_cons.mp h.small
      rw [capitalized, List.map_cons, map_toLower_of_small hcs, (letter_of_small hc).2.2.2.2]

/-- Dashes in front of the capitalized words and dashes in front of the words are one, but for the
capitals. -/
lemma map_toLower_flatMap {words : List (List Char)} (h : ∀ word ∈ words, IsWord word) :
    (words.flatMap fun word => '-' :: capitalized word).map Char.toLower =
      words.flatMap ('-' :: ·) := by
  rw [List.map_flatMap]
  refine List.flatMap_congr fun word hword => ?_
  rw [List.map_cons, map_toLower_capitalized (h word hword)]
  rfl

lemma dashCase_cons (word : List Char) (words : List (List Char)) :
    dashCase (word :: words) = word ++ words.flatMap ('-' :: ·) :=
  Text.joinWith_cons '-' word words

/-- A name of words begins with a small letter. -/
lemma exists_cons_of_isCompound {words : List (List Char)} (h : IsCompound words) :
    ∃ c cs rest, words = (c :: cs) :: rest ∧ ('a' ≤ c ∧ c ≤ 'z') ∧
      (∀ d ∈ cs, 'a' ≤ d ∧ d ≤ 'z') ∧ ∀ word ∈ rest, IsWord word := by
  obtain ⟨word, rest, rfl⟩ := List.exists_cons_of_ne_nil h.ne_nil
  obtain ⟨hword, hrest⟩ := List.forall_mem_cons.mp h.isWord
  obtain ⟨c, cs, rfl⟩ := List.exists_cons_of_ne_nil hword.ne_nil
  obtain ⟨hc, hcs⟩ := List.forall_mem_cons.mp hword.small
  exact ⟨c, cs, rest, rfl, hc, hcs, hrest⟩

lemma ne_dash_of_small {c : Char} (h : 'a' ≤ c ∧ c ≤ 'z') : c ≠ '-' ∧ c.toUpper ≠ '-' := by
  have hall : ∀ c : Char, c.toNat < 0x80 → ('a' ≤ c ∧ c ≤ 'z') → c ≠ '-' ∧ c.toUpper ≠ '-' :=
    forall_ascii (by decide)
  exact hall c (lt_of_small h) h

lemma isSmall_of_mem_dashCase {words : List (List Char)} (h : ∀ word ∈ words, IsWord word)
    {c : Char} (hc : c ∈ dashCase words) : isSmall c = true := by
  have hletter : ∀ word ∈ words, ∀ c ∈ word, isSmall c = true := by
    intro word hword c hc
    have hsmall := (h word hword).small c hc
    exact isSmall_iff.mpr ⟨lt_of_small hsmall, (letter_of_small hsmall).1⟩
  cases words with
  | nil => exact absurd hc List.not_mem_nil
  | cons word words =>
      obtain ⟨hword, hwords⟩ := List.forall_mem_cons.mp hletter
      rw [dashCase_cons, List.mem_append, List.mem_flatMap] at hc
      rcases hc with hc | ⟨next, hnext, hc⟩
      · exact hword c hc
      · rcases List.mem_cons.mp hc with rfl | hc
        · rfl
        · exact hwords next hnext c hc

/-- **Dashes between the words are canonical**, but for the dash of the vendor name `ms`. -/
theorem dashedChars_dashCase {words : List (List Char)} (h : IsCompound words) :
    dashedChars (dashCase words) = markVendor (dashCase words) := by
  refine dashedChars_of_isSmall (fun rest heq => ?_) fun c hc => isSmall_of_mem_dashCase h.isWord hc
  obtain ⟨c, cs, others, rfl, hc, -, -⟩ := exists_cons_of_isCompound h
  rw [dashCase_cons] at heq
  exact (ne_dash_of_small hc).1 (List.cons.inj heq).1

/-- **Camel case has the canonical spelling of the words with dashes.** -/
theorem dashedChars_camelCase {words : List (List Char)} (h : IsCompound words) :
    dashedChars (camelCase words) = markVendor (dashCase words) := by
  have hinner := h.inner
  obtain ⟨c, cs, rest, rfl, hc, hcs, hrest⟩ := exists_cons_of_isCompound h
  have hword : ∀ d ∈ c :: cs, 'a' ≤ d ∧ d ≤ 'z' := List.forall_mem_cons.mpr ⟨hc, hcs⟩
  have hascii : IsAscii (camelCase ((c :: cs) :: rest)) :=
    List.forall_mem_append.mpr
      ⟨fun d hd => lt_of_small (hword d hd), isAscii_flatMap_capitalized hrest⟩
  have hcustom : ∀ behind, camelCase ((c :: cs) :: rest) ≠ '-' :: '-' :: behind :=
    fun _ heq => (ne_dash_of_small hc).1 (List.cons.inj heq).1
  rw [dashedChars_of_isAscii hcustom hascii, camelCase, insertDashes_append hword (Or.inr rfl),
    insertDashes_flatMap hrest hinner, List.map_append, map_toLower_of_small hword,
    map_toLower_flatMap hrest, dashCase_cons]

/-- **A capital in front gives the name a dash in front.** -/
theorem dashedChars_pascalCase {words : List (List Char)} (h : IsCompound words)
    (hfirst : IsCapitalizable words) :
    dashedChars (pascalCase words) = '-' :: dashCase words := by
  have hwords := h.isWord
  have hinner := h.inner
  obtain ⟨c, cs, rest, rfl, hc, -, -⟩ := exists_cons_of_isCompound h
  have hlong : ∀ word ∈ ((c :: cs) :: rest).dropLast, 2 ≤ word.length := by
    cases rest with
    | nil => exact fun word hword => absurd hword List.not_mem_nil
    | cons next rest =>
        rw [List.dropLast_cons_cons]
        refine List.forall_mem_cons.mpr ⟨?_, hinner⟩
        rcases hfirst with hfirst | hsingle
        · exact hfirst _ rfl
        · simp at hsingle
  have hcustom : ∀ behind, pascalCase ((c :: cs) :: rest) ≠ '-' :: '-' :: behind :=
    fun _ heq => (ne_dash_of_small hc).2 (List.cons.inj heq).1
  rw [dashedChars_of_isAscii hcustom (isAscii_flatMap_capitalized hwords), pascalCase,
    insertDashes_flatMap hwords hlong, map_toLower_flatMap hwords, dashCase_cons]
  rfl

/-- **A leading dash is canonical.** -/
theorem dashedChars_dash_dashCase {words : List (List Char)} (h : IsCompound words) :
    dashedChars ('-' :: dashCase words) = '-' :: dashCase words := by
  refine dashedChars_eq_self (fun c hc => ?_) rfl
  rcases List.mem_cons.mp hc with rfl | hc
  · rfl
  · exact isSmall_of_mem_dashCase h.isWord hc

/-! ## Styles -/

/-- Two spellings of one name: in camel case and with dashes, perhaps with a capital and a dash in
front. -/
inductive SameName : String → String → Prop
  | camelCase {words : List (List Char)} (h : IsCompound words) :
      SameName (.ofList (camelCase words)) (.ofList (dashCase words))
  | pascalCase {words : List (List Char)} (h : IsCompound words) (hfirst : IsCapitalizable words) :
      SameName (.ofList (pascalCase words)) (.ofList ('-' :: dashCase words))

/-- One entry, or one value under two spellings of a name. -/
inductive Respelled : Key × Value → Key × Value → Prop
  | same (e : Key × Value) : Respelled e e
  | name {a b : String} (h : SameName a b ∨ SameName b a) (value : Value) :
      Respelled (.text a, value) (.text b, value)

lemma Respelled.symm {e f : Key × Value} (h : Respelled e f) : Respelled f e := by
  cases h with
  | same => exact .same e
  | name h value => exact .name h.symm value

/-- **The spellings of a name have one canonical spelling.** -/
theorem dashed_eq_of_sameName {a b : String} (h : SameName a b) : dashed a = dashed b := by
  cases h with
  | camelCase h =>
      rw [dashed, dashed, String.toList_ofList, String.toList_ofList, dashedChars_camelCase h,
        dashedChars_dashCase h]
  | pascalCase h hfirst =>
      rw [dashed, dashed, String.toList_ofList, String.toList_ofList,
        dashedChars_pascalCase h hfirst, dashedChars_dash_dashCase h]

section

variable {settings : Settings} {direction : Direction} {es fs : List (Key × Value)}

/-- **A value is resolved by the canonical spelling of its name.** -/
theorem refines_resolve_of_dashed_eq {a b : String} (h : dashed a = dashed b) (value : Value) :
    Refines (resolve settings direction a value) (resolve settings direction b value) := by
  have hknown : Refines (checkKnown settings a value) (checkKnown settings b value) := by
    intro _ hok
    rw [checkKnown, ite_reject_eq_ok] at hok ⊢
    rwa [← h]
  rw [resolve_eq, resolve_eq, ← h]
  exact hknown.bind fun _ => .refl _

lemma refines_resolveEntries_of_respelled (h : List.Forall₂ Respelled es fs)
    (before : DeclarationSet) :
    Refines (resolveEntriesIn settings direction before es)
      (resolveEntriesIn settings direction before fs) := by
  induction h generalizing before with
  | nil => exact .refl _
  | @cons e f es fs hef _ ih =>
      cases hef with
      | same =>
          obtain ⟨key, value⟩ := e
          rw [resolveEntriesIn, resolveEntriesIn]
          exact Refines.bind (.refl _) fun name => Refines.bind (.refl _) fun resolved => ih _
      | @name a b hab value =>
          have hdashed := hab.elim dashed_eq_of_sameName fun hba => (dashed_eq_of_sameName hba).symm
          have hresolve : Refines (resolve settings direction a value)
              (resolve settings direction b value) := refines_resolve_of_dashed_eq hdashed value
          have hrest : ∀ resolved,
              Refines (resolveEntriesIn settings direction (before.extend resolved) es)
                (resolveEntriesIn settings direction (before.extend resolved) fs) := fun _ => ih _
          exact hresolve.bind hrest

lemma refines_resolveStyle_of_respelled (h : List.Forall₂ Respelled es fs) :
    Refines (resolveStyle settings direction (.map es))
      (resolveStyle settings direction (.map fs)) :=
  refines_resolveEntries_of_respelled h {}

lemma refines_checkScalars_of_respelled (h : List.Forall₂ Respelled es fs) :
    Refines (checkScalars es) (checkScalars fs) := by
  induction h with
  | nil => exact .refl _
  | @cons e f es fs hef _ ih =>
      cases hef with
      | same =>
          obtain ⟨key, value⟩ := e
          cases value with
          | map => exact .refl _
          | null => exact .refl _
          | _ => exact ih
      | name _ value =>
          cases value with
          | map => exact fun _ hok => absurd hok (reject_ne_ok _ _)
          | null => exact fun _ hok => absurd hok (reject_ne_ok _ _)
          | _ => exact ih

lemma refines_compileBlock_of_respelled (h : List.Forall₂ Respelled es fs) (context : Context) :
    Refines (compileBlock settings context (.map es))
      (compileBlock settings context (.map fs)) := by
  have hchecked := refines_checkScalars_of_respelled h
  have hresolved : Refines (resolveEntriesIn settings .ltr {} es)
      (resolveEntriesIn settings .ltr {} fs) := refines_resolveEntries_of_respelled h {}
  cases h with
  | nil => exact .refl _
  | cons =>
      exact hchecked.bind fun _ => Refines.bind (.refl _) fun context =>
        hresolved.bind fun s => .refl _

end

/-- **Camel case and dashes are one spelling.**  A name of words has one canonical spelling in camel
case and with dashes, and with a capital in front it is canonically spelled with a dash in front.
So styles that differ in such spellings only resolve to the same declarations, and compile to the
same rule, or are both refused. -/
theorem dashed_eq_of_words :
    (∀ words, IsCompound words →
      dashed (.ofList (camelCase words)) = dashed (.ofList (dashCase words)) ∧
        (IsCapitalizable words →
          dashed (.ofList (pascalCase words)) = .ofList ('-' :: dashCase words))) ∧
      ∀ es fs, List.Forall₂ Respelled es fs → ∀ settings,
        (∀ direction s, resolveStyle settings direction (.map es) = .ok s ↔
          resolveStyle settings direction (.map fs) = .ok s) ∧
        ∀ context r, compileBlock settings context (.map es) = .ok r ↔
          compileBlock settings context (.map fs) = .ok r := by
  refine ⟨fun words h => ⟨dashed_eq_of_sameName (.camelCase h), fun hfirst => ?_⟩, ?_⟩
  · rw [dashed, String.toList_ofList, dashedChars_pascalCase h hfirst]
  · intro es fs h settings
    have hback : List.Forall₂ Respelled fs es := h.flip.imp fun _ _ hef => hef.symm
    refine ⟨fun direction s => ⟨?_, ?_⟩, fun context r => ⟨?_, ?_⟩⟩
    · exact refines_resolveStyle_of_respelled h s
    · exact refines_resolveStyle_of_respelled hback s
    · exact refines_compileBlock_of_respelled h context r
    · exact refines_compileBlock_of_respelled hback context r

/-- A vendor name of three words in each of its spellings, next to an entry that is as it was. -/
theorem dashed_eq_of_words_of_vendor :
    (dashed "msTransitionDelay" = dashed "ms-transition-delay" ∧
      dashed "MsTransitionDelay" = "-ms-transition-delay") ∧
    ∃ r, compileBlock {} {}
        (.map [(.text "MsTransitionDelay", .text "1s"), (.text "color", .text "red")]) = .ok r ∧
      compileBlock {} {}
        (.map [(.text "-ms-transition-delay", .text "1s"), (.text "color", .text "red")]) =
          .ok r := by
  have hwords : IsCompound ["ms".toList, "transition".toList, "delay".toList] := by decide
  have hfirst : IsCapitalizable ["ms".toList, "transition".toList, "delay".toList] :=
    Or.inl fun word h => Option.some.inj h ▸ by decide
  obtain ⟨hnames, hstyles⟩ := dashed_eq_of_words
  obtain ⟨hcamel, hpascal⟩ := hnames _ hwords
  have hspelled : SameName "MsTransitionDelay" "-ms-transition-delay" := .pascalCase hwords hfirst
  obtain ⟨r, hr⟩ : ∃ r, compileBlock {} {}
      (.map [(.text "MsTransitionDelay", .text "1s"), (.text "color", .text "red")]) = .ok r :=
    exists_eq_ok_of_isOk (by decide +kernel)
  have hentries : List.Forall₂ Respelled
      [(.text "MsTransitionDelay", .text "1s"), (.text "color", .text "red")]
      [(.text "-ms-transition-delay", .text "1s"), (.text "color", .text "red")] :=
    .cons (.name (Or.inl hspelled) _) (.cons (.same _) .nil)
  exact ⟨⟨hcamel, hpascal hfirst⟩, r, hr, ((hstyles _ _ hentries {}).2 {} r).mp hr⟩

end AtomicStyle
