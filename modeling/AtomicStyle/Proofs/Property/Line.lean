import AtomicStyle.Proofs.PlainName

/-!
# Values and names of one line

The canonical text of a value is a line, whatever the value holds: numbers are written in numerals,
and a text is tidied before anything else is made of it (`isLine_valueText`).  Names are not tidied,
so the canonical spelling of a name is a line if the name is one (`isLine_dashedChars`).

**Parts.**  What a value is taken apart into are parts of it, and what it is put together from again
are lines: components, importance marks, durations and quotes.

**Tables.**  The names in the tables are lines.
-/

namespace AtomicStyle.Property

open Css Text

/-! ## Parts of values -/

/-- A component is a part of the text. -/
lemma subset_of_mem_components {separator : Char} {text part : List Char}
    (h : part ∈ components [separator] text) : part ⊆ text := by
  obtain ⟨hmem, _⟩ := List.mem_filter.mp h
  obtain ⟨piece, hpiece, rfl⟩ := List.mem_map.mp hmem
  have hsub : piece ⊆ joinWith separator (pieces [separator] {} text) := subset_joinWith hpiece
  rw [joinWith_pieces] at hsub
  exact List.Subset.trans (trim_subset piece) hsub

lemma isLine_splitImportance {value : List Char} (h : IsLine value) :
    IsLine (splitImportance value).1 := by
  obtain ⟨mark, hvalue, _⟩ := exists_splitImportance_append value
  rw [hvalue, isLine_append] at h
  exact h.1

lemma isLine_attachImportance {body : List Char} (h : IsLine body) (important : Bool) :
    IsLine (attachImportance body important) := by
  cases important with
  | false => exact h
  | true => exact isLine_append.mpr ⟨h, by decide⟩

/-- The canonical spelling of a duration is a numeral. -/
lemma isNumeral_of_durationToken? {text token : List Char} {taken : Nat}
    (h : durationToken? text = some (token, taken)) : IsNumeral token := by
  unfold durationToken? at h
  split at h
  · cases h
  · split at h
    · cases h
    · split_ifs at h
      obtain ⟨rfl, _⟩ := Prod.mk.inj (Option.some.inj h)
      exact isNumeral_formatMilliseconds _

lemma isLine_canonicalizeFrom {text : List Char} (h : IsLine text) (before : Option Char)
    (skip : Nat) : IsLine (canonicalizeFrom before skip text) := by
  induction text generalizing before skip with
  | nil => exact isLine_nil
  | cons c cs ih =>
      obtain ⟨hc, hcs⟩ := isLine_cons.mp h
      rw [canonicalizeFrom]
      split_ifs with hskip hbegins
      · exact ih hcs _ _
      · split
        case h_1 token taken htoken =>
            exact isLine_append.mpr ⟨(isNumeral_of_durationToken? htoken).isLine, ih hcs _ _⟩
        case h_2 => exact isLine_cons.mpr ⟨hc, ih hcs _ _⟩
      · exact isLine_cons.mpr ⟨hc, ih hcs _ _⟩

/-- Quoting adds quotes and backslashes. -/
lemma isLine_quoteBody {body : List Char} (h : IsLine body) : IsLine (quoteBody body) := by
  have hescaped : IsLine (body.flatMap fun c => if c = '"' then ['\\', '"'] else [c]) := by
    intro hbreak
    obtain ⟨c, hc, hmem⟩ := List.mem_flatMap.mp hbreak
    split_ifs at hmem
    · exact absurd hmem (by decide)
    · exact h (List.mem_singleton.mp hmem ▸ hc)
  exact isLine_append.mpr ⟨isLine_cons.mpr ⟨by decide, hescaped⟩, by decide⟩

/-! ## Names -/

lemma isLine_insertDashes {name : List Char} (h : IsLine name) (before : Option Char) :
    IsLine (insertDashes before name) := by
  intro hbreak
  rcases mem_of_mem_insertDashes hbreak with hbreak | hdash
  · exact h hbreak
  · exact absurd hdash (by decide)

/-- **The canonical spelling of a name is a line if the name is one.** -/
theorem isLine_dashedChars {name : List Char} (h : IsLine name) : IsLine (dashedChars name) := by
  unfold dashedChars
  split
  · exact h
  · intro hbreak
    rcases mem_of_mem_markVendor hbreak with hbreak | hdash
    · exact isLine_lower (isLine_insertDashes h none) hbreak
    · exact absurd hdash (by decide)

/-- Stated for the characters of a literal, which need not be decoded then. -/
lemma isLine_ofList {name : List Char} (h : name.contains '\n' = false) :
    IsLine (String.ofList name).toList := by
  rw [String.toList_ofList, IsLine, ← List.contains_iff_mem, h]
  exact Bool.false_ne_true

lemma isLine_of_logical? {property : String} {l : Logical} (h : logical? property = some l) :
    ∀ name ∈ l.renderings, IsLine name.toList := by
  have hall : ∀ e ∈ logicalProperties, ∀ name ∈ e.2.renderings, IsLine name.toList := by
    simp only [logicalProperties, Logical.renderings, List.forall_mem_cons]
    repeat' apply And.intro
    all_goals first | exact isLine_ofList rfl | simp
  exact hall _ (mem_of_lookup_eq_some h)

lemma isLine_of_shorthand? {property : String} {s : Shorthand} (h : shorthand? property = some s) :
    ∀ name ∈ s.longhands, IsLine name.toList := by
  have hall : ∀ e ∈ shorthands, ∀ name ∈ e.2.longhands, IsLine name.toList := by
    simp only [shorthands, boxSides, pairOf, List.map, List.forall_mem_cons, String.reduceAppend]
    repeat' apply And.intro
    all_goals first | exact isLine_ofList rfl | simp
  exact hall _ (mem_of_lookup_eq_some h)

/-- A name that is a line has longhands that are lines. -/
lemma isLine_of_mem_expand {property : String} {value : Value} {l : String × Value}
    (h : IsLine property.toList) (hl : l ∈ expand property value) : IsLine l.1.toList := by
  rcases mem_expand_cases hl with ⟨rfl, _⟩ | ⟨s, hs, hmem, _⟩
  · exact h
  · exact isLine_of_shorthand? hs _ hmem

/-! ## Values -/

lemma isLine_contentBody {body adapted : List Char} (h : IsLine body)
    (hadapted : contentBody body = .ok adapted) : IsLine adapted := by
  unfold contentBody at hadapted
  split_ifs at hadapted
  · exact Except.ok.inj hadapted ▸ h
  · split at hadapted
    · exact absurd hadapted (fault_ne_ok _ _)
    · split_ifs at hadapted
      · exact Except.ok.inj hadapted ▸ h
      · exact Except.ok.inj hadapted ▸ isLine_quoteBody h

lemma isLine_adaptBody {property : String} {body adapted : List Char} (h : IsLine body)
    (hadapted : adaptBody property body = .ok adapted) : IsLine adapted := by
  unfold adaptBody at hadapted
  split_ifs at hadapted
  · obtain rfl := Except.ok.inj hadapted
    refine isLine_joinWith (by decide) (List.forall_mem_map.mpr fun part hpart => ?_)
    exact isLine_dashedChars (h.mono (subset_of_mem_components hpart))
  · exact isLine_contentBody h hadapted
  · exact Except.ok.inj hadapted ▸ isLine_canonicalizeFrom h none 0
  · exact Except.ok.inj hadapted ▸ h

/-- **The canonical text of a value is a line**, whatever the value and the property. -/
theorem isLine_valueText {strict : Bool} {property : String} {v : Value} {text : List Char}
    (h : valueText strict property v = .ok text) : IsLine text := by
  cases v with
  | int n => exact (isNumeral_numberText h).isLine
  | float x => exact (isNumeral_numberText h).isLine
  | text s =>
      obtain ⟨_, body, hbody, _, _, rfl⟩ := stringText_eq_ok.mp h
      have hplain := isLine_splitImportance (isLine_tidy s.toList)
      exact isLine_attachImportance (isLine_adaptBody hplain hbody) _
  | _ => exact absurd h (reject_ne_ok _ _)

end AtomicStyle.Property
