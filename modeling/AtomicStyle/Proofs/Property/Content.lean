import AtomicStyle.Proofs.Property.CanonicalText

/-!
# Generated content

The body of a `content` value is a keyword, a function call or a text that starts with a quote
(`IsContentBody`).  What is none of these is put between double quotes, and the double quotes in it
are escaped.

**Escaping.**  Each double quote gets a backslash of its own.  It is escaped by it unless a backslash
in front of it escapes that one (`quotesEscaped_escape`).

**Strings.**  Inside double quotes a text whose double quotes are all escaped leaves the string open
(`read_quotesEscaped`), so the scan for terminators accepts it only if the closing quote is
not escaped.  What is accepted is then one string (`isOneString_quoteBody`).
-/

namespace AtomicStyle.Property

open Css Text

/-- The text is a keyword of the property, a function call or begins with a quote. -/
def IsContentBody (text : List Char) : Prop :=
  isKeyword contentKeywords text = true ∨ isKeyword globalKeywords text = true ∨
    isCall text = true ∨ text.head? = some '"' ∨ text.head? = some '\''

instance (text : List Char) : Decidable (IsContentBody text) :=
  inferInstanceAs (Decidable (_ ∨ _ ∨ _ ∨ _ ∨ _))

/-- A backslash escapes every double quote of the text. -/
def QuotesEscaped (text : List Char) : Prop :=
  ∀ front back, text = front ++ '"' :: back → endsInEscape front = true

/-- No backslash escapes a double quote of the text. -/
def QuotesPlain (text : List Char) : Prop :=
  ∀ front back, text = front ++ '"' :: back → endsInEscape front = false

/-- The text is one string in double quotes: behind the opening quote, the first double quote that is
not escaped is the last character. -/
def IsOneString (text : List Char) : Prop :=
  ∃ inner, text = '"' :: inner ++ ['"'] ∧ QuotesEscaped inner ∧ endsInEscape inner = false

/-- Without a backslash nothing is escaped. -/
lemma quotesPlain_of_not_mem {text : List Char} (h : '\\' ∉ text) : QuotesPlain text := by
  rintro front back rfl
  rcases List.eq_nil_or_concat' front with rfl | ⟨front, c, rfl⟩
  · rfl
  · exact endsInEscape_append_of_ne front fun hc => h (by simp [hc])

/-! ## Escaping -/

/-- The text with a backslash in front of each double quote. -/
def escapeQuotes (text : List Char) : List Char :=
  text.flatMap fun c => if c = '"' then ['\\', '"'] else [c]

lemma quoteBody_eq (body : List Char) : quoteBody body = '"' :: escapeQuotes body ++ ['"'] := rfl

lemma escapeQuotes_cons_of_ne {c : Char} (h : c ≠ '"') (cs : List Char) :
    escapeQuotes (c :: cs) = c :: escapeQuotes cs := by
  simp [escapeQuotes, h]

lemma escapeQuotes_cons_quote (cs : List Char) :
    escapeQuotes ('"' :: cs) = '\\' :: '"' :: escapeQuotes cs := rfl

lemma escapeQuotes_concat (text : List Char) (c : Char) :
    escapeQuotes (text ++ [c]) = escapeQuotes text ++ if c = '"' then ['\\', '"'] else [c] := by
  simp [escapeQuotes]

/-- The backslashes at the end stay what they are. -/
lemma endsInEscape_escapeQuotes (text : List Char) :
    endsInEscape (escapeQuotes text) = endsInEscape text := by
  induction text using List.reverseRecOn with
  | nil => rfl
  | append_singleton text c ih =>
      have hquote : ∀ front, endsInEscape (front ++ ['"']) = false := fun front =>
        endsInEscape_append_of_ne front (by decide)
      rw [escapeQuotes_concat]
      split_ifs with hc
      · rw [hc, hquote, ← List.singleton_append, ← List.append_assoc, hquote]
      · by_cases hb : c = '\\'
        · rw [hb, endsInEscape_append_backslash, endsInEscape_append_backslash, ih]
        · rw [endsInEscape_append_of_ne _ hb, endsInEscape_append_of_ne _ hb]

/-- Each double quote behind the escaping is one of the text, with a backslash of its own. -/
lemma exists_of_escapeQuotes_eq {text front back : List Char}
    (h : escapeQuotes text = front ++ '"' :: back) :
    ∃ front' back', text = front' ++ '"' :: back' ∧ front = escapeQuotes front' ++ ['\\'] := by
  induction text generalizing front with
  | nil => exact absurd h.symm (List.append_ne_nil_of_right_ne_nil _ (List.cons_ne_nil _ _))
  | cons c cs ih =>
      by_cases hquote : c = '"'
      · subst hquote
        rw [escapeQuotes_cons_quote] at h
        rcases front with _ | ⟨d, _ | ⟨e, front⟩⟩
        · exact absurd (List.cons.inj h).1 (by decide)
        · rw [← (List.cons.inj h).1]
          exact ⟨[], cs, rfl, rfl⟩
        · obtain ⟨hd, h⟩ := List.cons.inj h
          obtain ⟨he, h⟩ := List.cons.inj h
          obtain ⟨front', back', rfl, rfl⟩ := ih h
          rw [← hd, ← he]
          exact ⟨'"' :: front', back', rfl, rfl⟩
      · rw [escapeQuotes_cons_of_ne hquote] at h
        cases front with
        | nil => exact absurd (List.cons.inj h).1 hquote
        | cons d front =>
            rw [List.cons_append, List.cons.injEq] at h
            obtain ⟨rfl, h⟩ := h
            obtain ⟨front', back', rfl, rfl⟩ := ih h
            refine ⟨c :: front', back', rfl, ?_⟩
            rw [escapeQuotes_cons_of_ne hquote]
            rfl

/-- **Escaping escapes.**  All double quotes are escaped if none of them was. -/
theorem quotesEscaped_escape {text : List Char} (h : QuotesPlain text) :
    QuotesEscaped (escapeQuotes text) := by
  intro front back htext
  obtain ⟨front', back', rfl, rfl⟩ := exists_of_escapeQuotes_eq htext
  rw [endsInEscape_append_backslash, endsInEscape_escapeQuotes, h front' back' rfl]
  rfl

/-! ## Strings -/

lemma QuotesEscaped.of_append {a b : List Char} (h : QuotesEscaped (a ++ b)) : QuotesEscaped a := by
  rintro front back rfl
  exact h front (back ++ b) (by simp)

/-- Inside double quotes an escaped double quote closes nothing, and nothing else does. -/
lemma read_quotesEscaped {text : List Char} (h : QuotesEscaped text) :
    Standing.read { quote := some .double } text =
      some { quote := some .double, escaped := endsInEscape text } := by
  induction text using List.reverseRecOn with
  | nil => rfl
  | append_singleton text c ih =>
      rw [Standing.read_append, ih h.of_append, Option.bind_some, Standing.read_singleton]
      have hquote : c = '"' → endsInEscape text = true := by
        rintro rfl
        exact h text [] rfl
      by_cases hc : c = '\\'
      · subst hc
        rw [endsInEscape_append_backslash]
        cases endsInEscape text <;> rfl
      · rw [endsInEscape_append_of_ne text hc]
        cases hescape : endsInEscape text with
        | true => rfl
        | false =>
            have hne : c ≠ '"' := fun heq => by rw [hquote heq] at hescape; cases hescape
            simp [Standing.next?, hc, hne, QuoteMark.char]

/-- **What is quoted and accepted is one string**, if no double quote was escaped before. -/
theorem isOneString_quoteBody {body : List Char} (h : QuotesPlain body)
    (hsafe : terminator? (quoteBody body) = none) : IsOneString (quoteBody body) := by
  have hescaped := quotesEscaped_escape h
  refine ⟨escapeQuotes body, rfl, hescaped, ?_⟩
  obtain ⟨t, hread, hclosed⟩ := terminator?_eq_none_iff.mp hsafe
  rw [quoteBody_eq, List.cons_append, Standing.read_cons] at hread
  have hopen : Standing.next? {} '"' = some { quote := some .double } := by decide
  rw [hopen, Option.bind_some, Standing.read_append, read_quotesEscaped hescaped,
    Option.bind_some, Standing.read_singleton] at hread
  by_contra hescape
  -- the closing quote would be escaped and the string would go on
  rw [Bool.not_eq_false] at hescape
  rw [hescape] at hread
  obtain rfl := Option.some.inj hread
  cases hclosed.2

/-! ## Values -/

lemma domain?_content : domain? "content" = some .plain := by decide +kernel

/-- What stands as it is is content. -/
lemma isContentBody_contentBody {body adapted : List Char} (h : contentBody body = .ok adapted) :
    IsContentBody adapted := by
  obtain ⟨hself, -⟩ := contentBody_cases h
  unfold contentBody at hself
  split_ifs at hself with hkeyword
  · rcases Bool.or_eq_true_iff.mp hkeyword with hkeyword | hkeyword
    · exact Or.inl hkeyword
    · exact Or.inr (Or.inl hkeyword)
  · split at hself
    case h_1 => exact absurd hself (fault_ne_ok _ _)
    case h_2 c cs =>
        split_ifs at hself with hstart
        · simp only [Bool.or_eq_true, decide_eq_true_eq] at hstart
          rcases hstart with (rfl | rfl) | hcall
          · exact Or.inr (Or.inr (Or.inr (Or.inl rfl)))
          · exact Or.inr (Or.inr (Or.inr (Or.inr rfl)))
          · exact Or.inr (Or.inr (Or.inl hcall))
        · refine Or.inr (Or.inr (Or.inr (Or.inl ?_)))
          rw [← Except.ok.inj hself]
          rfl

/-- **The values of the `content` property.**  A number is written as its bare numeral.  The body of a
text becomes a keyword, a function call or a text that starts with a quote: it is left as it is, or
it is put between quotes, and then it is one string if no backslash of it escapes a double quote. -/
theorem valueText_content {strict : Bool} {value : Value} {text : List Char}
    (h : valueText strict "content" value = .ok text) :
    (∃ n : Numeric, value = n.toValue ∧ n.format = .ok text) ∨
      ∃ s plain, value = .text s ∧ plain = (splitImportance (tidy s.toList)).1 ∧
        IsContentBody (splitImportance text).1 ∧
          ((splitImportance text).1 = plain ∨ (splitImportance text).1 = quoteBody plain ∧
            (QuotesPlain plain → IsOneString (splitImportance text).1)) := by
  have hnumber : ∀ {n : Numeric}, numberText strict "content" n = .ok text →
      n.format = .ok text := by
    intro n hn
    obtain ⟨_, plain, hplain, hn⟩ := numberText_eq_ok.mp hn
    rw [domain?_content] at hn
    rw [hplain, hn.2]
  cases value with
  | int n => exact Or.inl ⟨.int n, rfl, hnumber h⟩
  | float x => exact Or.inl ⟨.float x, rfl, hnumber h⟩
  | text s =>
      have hnames : takesPropertyNames "content" = false := by decide +kernel
      obtain ⟨hne, body, hadapt, hsafe, -, rfl⟩ := stringText_eq_ok.mp h
      obtain ⟨htidy, -, hplain⟩ :=
        adaptBody_adaptBody hnames (by rw [domain?_content]; nofun) (isTidy_tidy s.toList) hne hadapt
      have hcontent : contentBody (splitImportance (tidy s.toList)).1 = .ok body := by
        rw [adaptBody, hnames, if_neg Bool.false_ne_true, if_pos rfl] at hadapt
        exact hadapt
      rw [splitImportance_attach htidy.last fun himportant => (hplain himportant).2]
      refine Or.inr ⟨s, _, rfl, rfl, isContentBody_contentBody hcontent, ?_⟩
      obtain ⟨-, rfl | rfl⟩ := contentBody_cases hcontent
      · exact Or.inl rfl
      · exact Or.inr ⟨rfl, fun hquotes => isOneString_quoteBody hquotes hsafe⟩
  | _ => exact absurd h (reject_ne_ok _ _)

/-- A word is quoted, and its quotes are escaped. -/
theorem valueText_content_of_word :
    valueText false "content" (.text "say \"hi\" ! important") =
        .ok "\"say \\\"hi\\\"\" !important".toList ∧
      IsContentBody "\"say \\\"hi\\\"\"".toList ∧
        IsOneString "\"say \\\"hi\\\"\"".toList := by
  have hvalue : valueText false "content" (.text "say \"hi\" ! important") =
      .ok "\"say \\\"hi\\\"\" !important".toList := by rfl
  have hsplit : (splitImportance "\"say \\\"hi\\\"\" !important".toList).1 =
      "\"say \\\"hi\\\"\"".toList := by decide +kernel
  have hplain : (splitImportance (tidy "say \"hi\" ! important".toList)).1 =
      "say \"hi\"".toList := by decide +kernel
  rcases valueText_content hvalue with ⟨n, hn, -⟩ | ⟨s, plain, hs, rfl, hbody, hquoted⟩
  · cases n <;> cases hn
  · obtain rfl := Value.text.inj hs
    rw [hsplit] at hbody hquoted
    rw [hplain] at hquoted
    refine ⟨hvalue, hbody, ?_⟩
    rcases hquoted with hkept | ⟨-, hstring⟩
    · exact absurd hkept (by decide +kernel)
    · exact hstring (quotesPlain_of_not_mem (by decide +kernel))

/-- A numeral is no content. -/
theorem not_isContentBody_of_number :
    valueText false "content" (.int 5) = .ok ['5'] ∧
      ¬IsContentBody (splitImportance ['5']).1 := by
  have hfive : (Binary64.ofInt? 5).isSome = true := by decide +kernel
  have hnumeral : Numeral.signed 5 = ['5'] := by decide +kernel
  refine ⟨numberText_eq_ok.mpr ⟨by rw [Numeric.isFinite, if_pos hfive], ['5'], ?_, ?_⟩,
    by decide +kernel⟩
  · rw [Numeric.format, if_pos hfive, hnumeral]
  · rw [domain?_content]
    exact ⟨by decide, rfl⟩

end AtomicStyle.Property
