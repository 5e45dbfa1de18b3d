import AtomicStyle.Proofs.CanonicalDeclaration
import AtomicStyle.Proofs.Css.Spacing
import AtomicStyle.Rule
import Mathlib.Data.List.GetD

/-!
# The spelling of blanks

Texts that differ in their blanks only have one tidy text, and nearly all of the compiler reads tidy
texts.  So styles and contexts that differ in their blanks are compiled alike, with one exception:
a shorthand is dealt out before its value is tidied, and cut at spaces only.

**Values.**  The text of a value, and whether it is refused, depends on the tidy text
(`coincide_valueText`).

**Shorthands.**  If spaces cut the body of a shorthand's value as all blanks would
(`Css.CutAtSpaces`), the parts that are dealt out depend on the tidy text, but for the blanks inside
them (`forall₂_expand`).

**Rules.**  So all spellings of a style under all spellings of a context give one rule, or are refused
for one reason (`coincide_compileBlock`), if the shorthands are spaced like that.  It takes the
condition: `1px` and `2px` with a tab between them are one component of a margin and no longer two.
-/

namespace AtomicStyle

open Css Property Text

/-! ## Spellings -/

/-- The texts differ in their blanks only. -/
def SameTidy (a b : String) : Prop :=
  tidy a.toList = tidy b.toList

/-- The values are one, or texts that differ in their blanks only. -/
inductive Value.SameTidy : Value → Value → Prop
  | refl (v : Value) : Value.SameTidy v v
  | text {a b : String} (h : AtomicStyle.SameTidy a b) : Value.SameTidy (.text a) (.text b)

/-- One key, or one longhand, with two spellings of a value. -/
def SameEntry {κ : Type} (e f : κ × Value) : Prop :=
  e.1 = f.1 ∧ e.2.SameTidy f.2

/-- The conditions are the same but for their blanks. -/
structure Context.SameTidy (c d : Context) : Prop where
  pseudos : List.Forall₂ AtomicStyle.SameTidy c.pseudos d.pseudos
  atRules : List.Forall₂ AtomicStyle.SameTidy c.atRules d.atRules

/-- What is dealt out of a shorthand's text value. -/
def bodyOf (text : String) : List Char :=
  (splitImportance (trim text.toList)).1

/-- Where a shorthand deals the value out, spaces cut it as all blanks would. -/
def CutsAtSpaces (property : String) (value : Value) : Prop :=
  ∀ s text, shorthand? property = some s → value = .text text →
    dealOut? s text = none ∨ CutAtSpaces (bodyOf text)

/-- Where the entries are spelled in two ways, spaces cut both as all blanks would. -/
def SpacedAlike (e f : Key × Value) : Prop :=
  ∀ name, e.1 = .text name → e.2 ≠ f.2 →
    CutsAtSpaces (dashed name) e.2 ∧ CutsAtSpaces (dashed name) f.2

/-! ## Values -/

section

variable {settings : Settings} {direction : Direction}

lemma coincide_stringText (strict : Bool) (property : String) {a b : String} (h : SameTidy a b) :
    Coincide Eq (stringText strict property a) (stringText strict property b) := by
  have hrejected : ∀ reason : Reason, Failure.Alike
      (.rejected { reason := reason, property := property, fragment := .text a })
      (.rejected { reason := reason, property := property, fragment := .text b }) :=
    fun _ => ⟨rfl, rfl, rfl⟩
  have htidy : tidy a.toList = tidy b.toList := h
  simp only [stringText, htidy, reject_bind]
  refine .ite_reject (hrejected _) ((Coincide.refl _).bind_eq fun body => ?_)
  refine .ite_reject (hrejected _) ?_
  split_ifs
  · cases refusedComponent? property body with
    | none => exact .refl _
    | some component => exact .error (hrejected _)
  · exact .refl _

/-- **The text of a value depends on its tidy text.** -/
theorem coincide_valueText (strict : Bool) (property : String) {v w : Value} (h : v.SameTidy w) :
    Coincide Eq (valueText strict property v) (valueText strict property w) := by
  cases h with
  | refl v => exact .refl _
  | text h => exact coincide_stringText strict property h

lemma coincide_resolveLonghand {l k : String × Value} (h : SameEntry l k) :
    Coincide Eq (resolveLonghand settings direction l.1 l.2)
      (resolveLonghand settings direction k.1 k.2) := by
  obtain ⟨longhand, v⟩ := l
  obtain ⟨longhand', w⟩ := k
  obtain ⟨rfl, hvalue⟩ := h
  exact (coincide_valueText _ _ hvalue).bind_eq fun text => .refl _

/-! ## Shorthands -/

/-- The bodies of two spellings collapse to one, and both are important or neither. -/
lemma collapse_bodyOf {a b : String} (h : SameTidy a b) :
    collapse (bodyOf a) = collapse (bodyOf b) ∧
      (splitImportance (trim a.toList)).2 = (splitImportance (trim b.toList)).2 := by
  have hsplit := congrArg splitImportance h
  rw [tidy, tidy, splitImportance_collapse (endsBlank_trim _),
    splitImportance_collapse (endsBlank_trim _), Prod.mk.injEq] at hsplit
  exact hsplit

/-- No blank stands at either end of a component, or of what stands for a missing one. -/
lemma trim_getD_components (separators text : List Char) (i : Nat) :
    startsBlank ((components separators text).getD i []) = false ∧
      endsBlank ((components separators text).getD i []) = false := by
  rcases Nat.lt_or_ge i (components separators text).length with hi | hi
  · rw [List.getD_eq_getElem _ _ hi]
    have hmem := List.getElem_mem hi
    obtain ⟨piece, _, hpiece⟩ := List.mem_map.mp (List.mem_filter.mp hmem).1
    rw [← hpiece]
    exact ⟨startsBlank_trim piece, endsBlank_trim piece⟩
  · rw [List.getD_eq_default _ _ hi]
    exact ⟨rfl, rfl⟩

/-- A mark is put behind two spellings alike. -/
lemma sameTidy_attachImportance {x y : List Char} (hx : startsBlank x = false ∧ endsBlank x = false)
    (hy : startsBlank y = false ∧ endsBlank y = false) (h : collapse x = collapse y)
    (important : Bool) :
    SameTidy (String.ofList (attachImportance x important))
      (String.ofList (attachImportance y important)) := by
  have hplain : ∀ {z}, startsBlank z = false ∧ endsBlank z = false → tidy z = collapse z :=
    fun hz => by rw [tidy, trim_eq_self hz.1 hz.2]
  rw [SameTidy, String.toList_ofList, String.toList_ofList]
  cases important with
  | false => exact (hplain hx).trans (h.trans (hplain hy).symm)
  | true =>
      by_cases hne : x = []
      · have hy : y = [] := by
          rw [hne] at h
          exact collapse_eq_nil_iff.mp h.symm
        rw [hne, hy]
      · have hyne : y ≠ [] := by
          rintro rfl
          exact hne (collapse_eq_nil_iff.mp h)
        have hmark : ∀ {z}, z ≠ [] → startsBlank z = false ∧ endsBlank z = false →
            tidy (attachImportance z true) = collapse z ++ collapse (' ' :: importantMark) := by
          intro z hz hends
          have hattached : startsBlank (z ++ ' ' :: importantMark) = false ∧
              endsBlank (z ++ ' ' :: importantMark) = false := by
            rw [startsBlank_append hz, endsBlank_append (by simp)]
            exact ⟨hends.1, by decide⟩
          rw [attachImportance, if_pos rfl, hplain hattached, collapse_append hends.2]
        rw [hmark hne hx, hmark hyne hy, h]

lemma mem_collapse_iff {c : Char} (hc : isBlank c = false) {text : List Char} :
    c ∈ collapse text ↔ c ∈ text := by
  refine ⟨fun h => ?_, mem_collapse_of_mem hc⟩
  rcases mem_of_mem_collapseFrom h with rfl | h
  · exact absurd hc (by decide)
  · exact h

/-- What a text without a slash is dealt out to. -/
lemma dealOut?_of_not_mem {s : Shorthand} {value : String} (h : '/' ∉ bodyOf value) :
    dealOut? s value = (s.layout? (components [' '] (bodyOf value)).length).map fun layout =>
      (s.longhands.zip layout).map fun (longhand, i) => (longhand, .text (String.ofList
        (attachImportance ((components [' '] (bodyOf value)).getD i [])
          (splitImportance (trim value.toList)).2))) := by
  unfold dealOut? bodyOf
  rw [bodyOf] at h
  dsimp only
  split
  case h_1 hnone => rw [hnone, Option.map_none]
  case h_2 layout hlayout =>
      rw [hlayout, Option.map_some, if_neg (by simpa using h)]

lemma slash_mem_iff {a b : String} (h : SameTidy a b) : '/' ∈ bodyOf a ↔ '/' ∈ bodyOf b := by
  rw [← mem_collapse_iff (by decide), (collapse_bodyOf h).1, mem_collapse_iff (by decide)]

/-- Components at spaces are as many as the tidy text has, if spaces cut as all blanks would. -/
lemma map_collapse_components_of_cutAtSpaces {text : List Char} (h : CutAtSpaces text) :
    (components [' '] text).map collapse = components [' '] (collapse text) := by
  rw [h, map_collapse_components]

/-- What is not dealt out in one spelling is not dealt out in another that spaces cut as all blanks
would: that has no fewer components. -/
lemma dealOut?_eq_none_of_sameTidy {s : Shorthand} {a b : String} (h : SameTidy a b)
    (ha : dealOut? s a = none) (hb : CutAtSpaces (bodyOf b)) : dealOut? s b = none := by
  rw [dealOut?_eq_none_iff] at ha ⊢
  rcases ha with hlayout | hslash
  · refine Or.inl (layout?_eq_none_iff.mpr ?_)
    have hbody := (collapse_bodyOf h).1
    have hlength := congrArg List.length (map_collapse_components_of_cutAtSpaces hb)
    rw [List.length_map, ← hbody] at hlength
    rcases layout?_eq_none_iff.mp hlayout with hzero | hmany
    · have hnil : bodyOf a = [] := eq_nil_of_components_eq_nil
        (endsBlank_splitImportance (endsBlank_trim _)) (List.length_eq_zero_iff.mp hzero)
      rw [hnil] at hlength
      exact Or.inl hlength
    · have hcount := length_components_le_collapse (bodyOf a)
      exact Or.inr (hmany.trans_le (hcount.trans hlength.ge))
  · exact Or.inr ((slash_mem_iff h).mp hslash)

/-- **Two spellings of a text value are dealt out alike**, to spellings of the same parts. -/
theorem rel_dealOut? {s : Shorthand} {a b : String} (h : SameTidy a b)
    (ha : dealOut? s a = none ∨ CutAtSpaces (bodyOf a))
    (hb : dealOut? s b = none ∨ CutAtSpaces (bodyOf b)) :
    Option.Rel (List.Forall₂ SameEntry) (dealOut? s a) (dealOut? s b) := by
  rcases ha with ha | ha
  · have hb := hb.elim id (dealOut?_eq_none_of_sameTidy h ha)
    rw [ha, hb]
    exact .none
  rcases hb with hb | hb
  · have ha := dealOut?_eq_none_of_sameTidy h.symm hb ha
    rw [ha, hb]
    exact .none
  by_cases hmem : '/' ∈ bodyOf a
  · rw [dealOut?_eq_none_iff.mpr (Or.inr hmem),
      dealOut?_eq_none_iff.mpr (Or.inr ((slash_mem_iff h).mp hmem))]
    exact .none
  · obtain ⟨hbody, himportant⟩ := collapse_bodyOf h
    have hparts : (components [' '] (bodyOf a)).map collapse =
        (components [' '] (bodyOf b)).map collapse := by
      rw [map_collapse_components_of_cutAtSpaces ha, map_collapse_components_of_cutAtSpaces hb, hbody]
    have hlength := congrArg List.length hparts
    rw [List.length_map, List.length_map] at hlength
    rw [dealOut?_of_not_mem hmem, dealOut?_of_not_mem fun hb => hmem ((slash_mem_iff h).mpr hb),
      hlength, himportant]
    cases s.layout? (components [' '] (bodyOf b)).length with
    | none => exact .none
    | some layout =>
        refine .some ?_
        rw [List.forall₂_map_left_iff, List.forall₂_map_right_iff, List.forall₂_same]
        rintro ⟨longhand, i⟩ _
        have hpart := congrArg (·.getD i []) hparts
        rw [← show collapse [] = [] from rfl, List.getD_map, List.getD_map] at hpart
        exact ⟨rfl, .text (sameTidy_attachImportance (trim_getD_components _ _ i)
          (trim_getD_components _ _ i) hpart _)⟩

/-- **Two spellings of a value are expanded to spellings of the same longhands.** -/
theorem forall₂_expand {property : String} {v w : Value} (h : v.SameTidy w)
    (hcut : v ≠ w → CutsAtSpaces property v ∧ CutsAtSpaces property w) :
    List.Forall₂ SameEntry (expand property v) (expand property w) := by
  have hsame : ∀ v, List.Forall₂ SameEntry (expand property v) (expand property v) :=
    fun v => List.forall₂_same.mpr fun l _ => ⟨rfl, .refl l.2⟩
  cases h with
  | refl v => exact hsame v
  | @text a b h =>
      by_cases hab : a = b
      · exact hab ▸ hsame (.text a)
      obtain ⟨ha, hb⟩ := hcut fun heq => hab (Value.text.inj heq)
      have hself : List.Forall₂ SameEntry [(property, Value.text a)] [(property, Value.text b)] :=
        .cons ⟨rfl, .text h⟩ .nil
      cases hs : shorthand? property with
      | none => simpa only [expand, hs] using hself
      | some s =>
          have hrel : Option.Rel (List.Forall₂ SameEntry) (dealOut? s a) (dealOut? s b) :=
            rel_dealOut? h (ha s a hs rfl) (hb s b hs rfl)
          simp only [expand, hs]
          generalize dealOut? s a = x, dealOut? s b = y at hrel
          cases hrel with
          | none => exact hself
          | some hdealt => exact hdealt

/-! ## Rules -/

lemma coincide_resolve {name : String} {v w : Value} (h : v.SameTidy w)
    (hcut : v ≠ w → CutsAtSpaces (dashed name) v ∧ CutsAtSpaces (dashed name) w) :
    Coincide Eq (resolve settings direction name v) (resolve settings direction name w) := by
  have hknown : Coincide Eq (checkKnown settings name v) (checkKnown settings name w) := by
    unfold checkKnown
    split_ifs
    · exact .error ⟨rfl, rfl, rfl⟩
    · exact .refl _
  rw [resolve_eq, resolve_eq]
  refine hknown.bind_eq fun _ => Coincide.bind_eq (.mapM ?_) fun ds => .refl _
  exact (forall₂_expand h hcut).imp fun _ _ => coincide_resolveLonghand

lemma coincide_resolveEntries {es fs : List (Key × Value)} (h : List.Forall₂ SameEntry es fs)
    (hcut : List.Forall₂ SpacedAlike es fs) (before : DeclarationSet) :
    Coincide Eq (resolveEntriesIn settings direction before es)
      (resolveEntriesIn settings direction before fs) := by
  induction h generalizing before with
  | nil => exact .refl _
  | @cons e f es fs hef _ ih =>
      obtain ⟨key, v⟩ := e
      obtain ⟨key', w⟩ := f
      obtain ⟨rfl, hvalue⟩ := hef
      obtain ⟨hspaced, hrest⟩ := List.forall₂_cons.mp hcut
      cases key with
      | number n => exact .refl _
      | text name =>
          refine (coincide_resolve hvalue (hspaced name rfl)).bind_eq fun resolved => ?_
          exact ih hrest _

lemma coincide_checkScalars {es fs : List (Key × Value)} (h : List.Forall₂ SameEntry es fs) :
    Coincide Eq (checkScalars es) (checkScalars fs) := by
  induction h with
  | nil => exact .refl _
  | @cons e f es fs hef _ ih =>
      obtain ⟨key, v⟩ := e
      obtain ⟨key', w⟩ := f
      obtain ⟨rfl, hvalue⟩ := hef
      cases hvalue with
      | text => exact ih
      | refl v =>
          cases v with
          | map entries => exact .refl _
          | null => exact .refl _
          | _ => exact ih

/-- Two spellings of a context have one canonical spelling, or are refused alike. -/
lemma tidy_eq_of_sameTidy {c d : Context} (h : c.SameTidy d) : c.tidy = d.tidy := by
  have hmap : ∀ {as bs : List String}, List.Forall₂ SameTidy as bs →
      as.map Context.tidyText = bs.map Context.tidyText := by
    intro as bs hsame
    induction hsame with
    | nil => rfl
    | cons hab _ ih =>
        rw [List.map_cons, List.map_cons, ih]
        exact congrArg (String.ofList · :: _) hab
  unfold Context.tidy
  rw [hmap h.pseudos, hmap h.atRules]

/-- **The spelling of blanks does not matter**, as far as spaces cut the shorthands that are spelled
in two ways: a style in two spellings, under a context in two spellings, gives one rule or fails
alike. -/
theorem coincide_compileBlock {c d : Context} {es fs : List (Key × Value)} (hcontext : c.SameTidy d)
    (h : List.Forall₂ SameEntry es fs) (hcut : List.Forall₂ SpacedAlike es fs) :
    Coincide Eq (compileBlock settings c (.map es)) (compileBlock settings d (.map fs)) := by
  have hentries : Coincide (fun xs ys => xs = es ∧ ys = fs) (styleEntries (.map es))
      (styleEntries (.map fs)) := by
    cases h with
    | nil => exact .error ⟨rfl, rfl, rfl⟩
    | cons => exact .ok ⟨rfl, rfl⟩
  refine hentries.bind ?_
  rintro _ _ ⟨rfl, rfl⟩
  refine (coincide_checkScalars h).bind_eq fun _ => ?_
  rw [tidy_eq_of_sameTidy hcontext]
  refine (Coincide.refl _).bind_eq fun tidied => ?_
  refine (coincide_resolveEntries h hcut {}).bind_eq fun s => ?_
  exact .refl _

/-- A run that holds a space cuts like one, and where nothing is dealt out any blanks may stand. -/
theorem compileBlock_of_two_spellings :
    ∃ r, compileBlock {} { pseudos := [" :hover"], atRules := ["@media\t print"] }
        (.map [(.text "margin", .text "1px \t2px !important"),
          (.text "boxShadow", .text "0\t1px")]) = .ok r ∧
      compileBlock {} { pseudos := [":hover"], atRules := ["@media print"] }
        (.map [(.text "margin", .text " 1px 2px !important"),
          (.text "boxShadow", .text "0 1px")]) = .ok r := by
  have hcontext : Context.SameTidy { pseudos := [" :hover"], atRules := ["@media\t print"] }
      { pseudos := [":hover"], atRules := ["@media print"] } :=
    ⟨.cons (by unfold SameTidy; decide) .nil, .cons (by unfold SameTidy; decide) .nil⟩
  have hentries : List.Forall₂ SameEntry
      [(Key.text "margin", Value.text "1px \t2px !important"),
        (Key.text "boxShadow", Value.text "0\t1px")]
      [(Key.text "margin", Value.text " 1px 2px !important"),
        (Key.text "boxShadow", Value.text "0 1px")] :=
    .cons ⟨rfl, .text (by unfold SameTidy; decide)⟩
      (.cons ⟨rfl, .text (by unfold SameTidy; decide)⟩ .nil)
  have hmargin : SpacedAlike (.text "margin", .text "1px \t2px !important")
      (.text "margin", .text " 1px 2px !important") := by
    intro name _ _
    constructor
    · rintro s text _ htext
      obtain rfl := Value.text.inj htext
      exact Or.inr (by decide +kernel)
    · rintro s text _ htext
      obtain rfl := Value.text.inj htext
      exact Or.inr (by decide +kernel)
  have hshadow : SpacedAlike (.text "boxShadow", .text "0\t1px")
      (.text "boxShadow", .text "0 1px") := by
    intro name hname _
    obtain rfl := Key.text.inj hname
    have hnone : shorthand? (dashed "boxShadow") = none := by decide +kernel
    constructor <;> intro s text hs _ <;> rw [hnone] at hs <;> cases hs
  have hrun : (compileBlock {} { pseudos := [" :hover"], atRules := ["@media\t print"] }
      (.map [(.text "margin", .text "1px \t2px !important"),
        (.text "boxShadow", .text "0\t1px")])).toOption.isSome = true := by decide +kernel
  obtain ⟨r, hr⟩ := Option.isSome_iff_exists.mp hrun
  have hr := eq_ok_of_toOption hr
  exact ⟨r, hr, (coincide_compileBlock hcontext hentries
    (.cons hmargin (.cons hshadow .nil))).eq_ok hr⟩

/-- A tab alone cuts no shorthand, and here it takes two components for one. -/
theorem not_coincide_of_tab :
    SameTidy "1px\t2px" "1px 2px" ∧
      ¬Coincide Eq (compileBlock {} {} (.map [(.text "margin", .text "1px\t2px")]))
        (compileBlock {} {} (.map [(.text "margin", .text "1px 2px")])) := by
  refine ⟨by unfold SameTidy; decide +kernel, fun h => ?_⟩
  have hrun : (do
      let r ← compileBlock {} {} (.map [(.text "margin", .text "1px\t2px")])
      let r' ← compileBlock {} {} (.map [(.text "margin", .text "1px 2px")])
      pure (decide (r = r')) : Outcome Bool) = .ok false := eq_ok_of_toOption (by decide +kernel)
  simp only [bind_eq_ok, pure_eq_ok, decide_eq_false_iff_not] at hrun
  obtain ⟨r, hr, r', hr', hne⟩ := hrun
  exact hne (Except.ok.inj ((h.eq_ok hr).symm.trans hr'))

end

end AtomicStyle
