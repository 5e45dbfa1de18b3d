import AtomicStyle.Proofs.CanonicalDeclaration
import AtomicStyle.Proofs.Rule.Addressing

/-!
# Compiling what was compiled

What a style resolves to can be written as a style again, property by property.  This file says that
compiling that style gives the same rule.

**Resolution.**  The entries of canonical declarations are resolved one by one to what they say, and
none takes the place of another, since a merged set has each property once
(`items_of_resolveStyle_toStyle`).

**Counterparts.**  The new set reads like the old one from left to right, and then both have a
counterpart if one has (`exists_counterpart_of_items_eq`).  The counterparts need not be the same: a
declaration of a physical name no longer knows of the logical name that it was made from.

**Rules.**  So the style compiles, and what depends on the left-to-right text alone is the same
(`exists_compileBlock_toStyle`).
-/

namespace AtomicStyle

open Css Property

variable {settings : Settings}

/-! ## Resolution -/

/-- The style that gives each property of the set its value. -/
def DeclarationSet.toStyle (s : DeclarationSet) : Value :=
  .map (s.items.map fun item => (.text item.1, .text item.2))

/-- The declaration as its entry is resolved: it comes from its own property. -/
def Declaration.restated (d : Declaration) : Declaration :=
  { property := d.property, value := d.value, origin := d.property }

lemma DeclarationSet.toStyle_eq (s : DeclarationSet) :
    s.toStyle = .map (s.declarations.map Declaration.entry) := by
  rw [toStyle, items, List.map_map]
  rfl

lemma Declaration.IsCanonical.resolvesTo {d : Declaration} (hd : d.IsCanonical settings) :
    ResolvesTo settings .ltr (d.property, .text d.value) d.restated := by
  have htext : valueText settings.strictValues (physicalName settings .ltr d.property)
      (.text d.value) = .ok d.value.toList := by
    rw [hd.rendered]
    exact hd.text
  refine bind_eq_ok.mpr ⟨d.value.toList, htext, ?_⟩
  dsimp only
  rw [hd.rendered, hd.value, String.ofList_toList, if_pos rfl]
  rfl

/-- The entries of canonical declarations are not expanded. -/
lemma longhandsOf_map_entry {ds : List Declaration} (h : ∀ d ∈ ds, d.IsCanonical settings) :
    longhandsOf settings (ds.map Declaration.entry) =
      .ok (ds.map fun d => (d.property, .text d.value)) := by
  induction ds with
  | nil => rfl
  | cons d ds ih =>
      obtain ⟨hd, hds⟩ := List.forall_mem_cons.mp h
      refine longhandsOf_cons_eq_ok.mpr ⟨d.property, rfl, ?_, _, ih hds, ?_⟩
      · rw [checkKnown_eq_ok, hd.spelled]
        exact hd.known
      · rw [hd.spelled, hd.whole]
        rfl

/-- What a style resolves to has each property once. -/
lemma nodup_of_resolveStyle {direction : Direction} {style : Value} {s : DeclarationSet}
    (h : resolveStyle settings direction style = .ok s) :
    (s.declarations.map Declaration.property).Nodup := by
  obtain ⟨ds, _, rfl⟩ := resolveStyle_eq_ok.mp h
  rw [DeclarationSet.declarations_ofList]
  exact nodup_placeAll (by simp) ds

/-- Expanding leaves something. -/
lemma expand_ne_nil (property : String) (value : Value) : expand property value ≠ [] := by
  have hlonghands : ∀ e ∈ shorthands, e.2.longhands ≠ [] := by decide
  have hlayout : ∀ {s : Shorthand} {count layout}, s.layout? count = some layout → layout ≠ [] := by
    intro s count layout h
    unfold Shorthand.layout? at h
    split at h <;> simp at h <;> subst h <;> simp
  unfold expand
  split
  case h_1 => simp
  case h_2 s text hs =>
      cases hdeal : dealOut? s text with
      | none => simp
      | some dealt =>
          unfold dealOut? at hdeal
          dsimp only at hdeal
          split at hdeal
          case h_1 => cases hdeal
          case h_2 layout hcount =>
              split_ifs at hdeal
              obtain rfl := Option.some.inj hdeal
              simpa using ⟨hlonghands _ (mem_of_lookup_eq_some hs), hlayout hcount⟩
  case h_3 _ s hs _ => simpa using hlonghands _ (mem_of_lookup_eq_some hs)

/-- A style that has entries resolves to a set that has declarations. -/
lemma declarations_ne_nil_of_resolveStyle {direction : Direction} {entry : Key × Value}
    {entries : List (Key × Value)} {s : DeclarationSet}
    (h : resolveStyle settings direction (.map (entry :: entries)) = .ok s) :
    s.declarations ≠ [] := by
  obtain ⟨ds, hds, rfl⟩ := resolveStyle_eq_ok.mp h
  obtain ⟨_, heq, longhands, hlonghands, hmatch⟩ := writtenDeclarations_eq_ok.mp hds
  obtain rfl := Except.ok.inj heq
  obtain ⟨name, _, _, others, _, rfl⟩ := longhandsOf_cons_eq_ok.mp hlonghands
  have hlast := lastFor?_placeAll ds
  rw [DeclarationSet.declarations_ofList]
  intro hnil
  obtain ⟨l, ls, hl⟩ := List.exists_cons_of_ne_nil (expand_ne_nil (dashed name) entry.2)
  rw [hl] at hmatch
  cases hmatch with
  | @cons _ d _ ds _ _ =>
      have hnone := (hlast d.property).symm
      rw [hnil, lastFor?_nil, lastFor?_eq_none_iff] at hnone
      exact hnone d List.mem_cons_self rfl

/-- **A set of canonical declarations is resolved to its items again.** -/
theorem items_of_resolveStyle_toStyle {s : DeclarationSet}
    (hcanonical : ∀ d ∈ s.declarations, d.IsCanonical settings)
    (hnodup : (s.declarations.map Declaration.property).Nodup) :
    ∃ s', resolveStyle settings .ltr s.toStyle = .ok s' ∧ s'.items = s.items := by
  have hwritten : writtenDeclarations settings .ltr s.toStyle =
      .ok (s.declarations.map Declaration.restated) := by
    refine writtenDeclarations_eq_ok.mpr ⟨s.declarations.map Declaration.entry, ?_, _,
      longhandsOf_map_entry hcanonical, ?_⟩
    · rw [DeclarationSet.toStyle_eq]
      rfl
    · rw [List.forall₂_map_left_iff, List.forall₂_map_right_iff, List.forall₂_same]
      exact fun d hd => (hcanonical d hd).resolvesTo
  refine ⟨_, resolveStyle_eq_ok.mpr ⟨_, hwritten, rfl⟩, items_eq_iff.mpr ?_⟩
  have hproperties : (s.declarations.map Declaration.restated).map Declaration.property =
      s.declarations.map Declaration.property := List.map_map
  rw [DeclarationSet.declarations_ofList, placeAll_of_nodup (by rwa [List.nil_append, hproperties]),
    List.nil_append, List.forall₂_map_left_iff, List.forall₂_same]
  exact fun d _ => ⟨rfl, rfl⟩

/-! ## Counterparts -/

/-- **Of sets that read alike from left to right both have a counterpart if one has.** -/
theorem exists_counterpart_of_items_eq {s t u : DeclarationSet}
    (hs : ∀ d ∈ s.declarations, d.Resolved settings .ltr)
    (ht : ∀ d ∈ t.declarations, d.Resolved settings .ltr) (hitems : s.items = t.items)
    (hu : counterpart settings s = .ok u) : ∃ v, counterpart settings t = .ok v := by
  obtain ⟨es, hes⟩ : ∃ es, List.Forall₂ (fun e e' => counterpartDeclaration settings e = .ok e')
      t.declarations es := by
    refine exists_forall₂_of_corner ?_ (forall₂_resolved hs ht hitems) (forall₂_counterpart hu)
    rintro d e d' ⟨hd, he, hproperty, hvalue⟩ hd'
    exact exists_counterpartDeclaration hd he hproperty hvalue hd'
  exact ⟨_, counterpart_eq_ok.mpr ⟨es, hes, rfl⟩⟩

/-! ## Rules -/

/-- Texts are scalars. -/
lemma checkScalars_map_entry (ds : List Declaration) :
    checkScalars (ds.map Declaration.entry) = .ok () := by
  induction ds with
  | nil => rfl
  | cons d ds ih => exact ih

/-- The steps of a compilation, put together. -/
lemma exists_compileBlock {context tidied : Context} {entries : List (Key × Value)}
    {s t : DeclarationSet} (hentries : entries ≠ []) (hscalars : checkScalars entries = .ok ())
    (hcontext : context.tidy = .ok tidied)
    (hs : resolveStyle settings .ltr (.map entries) = .ok s)
    (ht : counterpart settings s = .ok t) :
    ∃ r, compileBlock settings context (.map entries) = .ok r := by
  obtain ⟨entry, rest, rfl⟩ := List.exists_cons_of_ne_nil hentries
  obtain ⟨other, hother⟩ := exists_withCounterpart ht
  exact ⟨_, bind_eq_ok.mpr ⟨entry :: rest, rfl, bind_eq_ok.mpr ⟨(), hscalars,
    bind_eq_ok.mpr ⟨tidied, hcontext, bind_eq_ok.mpr ⟨s, hs,
      bind_eq_ok.mpr ⟨(s, other), hother, rfl⟩⟩⟩⟩⟩⟩

/-- A style that compiles has entries. -/
lemma exists_cons_of_compileBlock {context : Context} {entries : List (Key × Value)} {r : Rule}
    (h : compileBlock settings context (.map entries) = .ok r) :
    ∃ entry rest, entries = entry :: rest := by
  cases entries with
  | nil => exact absurd h (reject_ne_ok _ _)
  | cons entry rest => exact ⟨entry, rest, rfl⟩

/-- **The rule of a set that is given as a style** reads like the rule of the set. -/
theorem exists_compileBlock_toStyle {context tidied : Context} {s t : DeclarationSet}
    {other : Option DeclarationSet} (hne : s.declarations ≠ [])
    (hcontext : context.tidy = .ok tidied)
    (hresolved : ∀ d ∈ s.declarations, d.Resolved settings .ltr)
    (hcanonical : ∀ d ∈ s.declarations, d.IsCanonical settings)
    (hnodup : (s.declarations.map Declaration.property).Nodup)
    (ht : counterpart settings s = .ok t) :
    ∃ r s', compileBlock settings context s.toStyle = .ok r ∧
      resolveStyle settings .ltr s.toStyle = .ok s' ∧ s'.items = s.items ∧
        r.identifier = (ruleOf settings s other tidied).identifier ∧
          r.ltr = (ruleOf settings s other tidied).ltr := by
  obtain ⟨s', hs', hitems⟩ := items_of_resolveStyle_toStyle hcanonical hnodup
  have hresolved' : ∀ d ∈ s'.declarations, d.Resolved settings .ltr :=
    fun d hd => resolved_of_mem hs' hd
  obtain ⟨t', ht'⟩ := exists_counterpart_of_items_eq hresolved hresolved' hitems.symm ht
  obtain ⟨r, hr⟩ : ∃ r, compileBlock settings context s.toStyle = .ok r := by
    rw [s.toStyle_eq] at hs' ⊢
    exact exists_compileBlock (by simpa using hne) (checkScalars_map_entry s.declarations) hcontext
      hs' ht'
  obtain ⟨tidied', s₂, t₂, htidied', hs₂, _, rfl⟩ := exists_of_compileBlock hr
  obtain rfl : tidied = tidied' := Except.ok.inj (hcontext.symm.trans htidied')
  obtain rfl : s' = s₂ := Except.ok.inj (hs'.symm.trans hs₂)
  have htext : emitDeclarations s' = emitDeclarations s := emitDeclarations_eq_of_items_eq hitems
  have hname : (ruleOf settings s' (if t₂.items = s'.items then none else some t₂)
      tidied).identifier = (ruleOf settings s other tidied).identifier :=
    identifier_ruleOf_eq htext _ _ _
  refine ⟨_, s', hr, hs', hitems, hname, ?_⟩
  simp only [ruleOf] at hname ⊢
  rw [hname, emitRule_eq_iff, htext]

/-! ## What was compiled -/

/-- **Compiling what was compiled changes nothing.** -/
theorem recompile_of_compile {context : Context} {entries : List (Key × Value)} {r : Rule}
    {s : DeclarationSet}
    (hentries : ∀ name value, (Key.text name, value) ∈ entries → IsRereadable name value)
    (h : compileBlock settings context (.map entries) = .ok r)
    (hs : resolveStyle settings .ltr (.map entries) = .ok s)
    (hproperties : ∀ d ∈ s.declarations,
      d.property ∉ timeProperties ∧ takesPropertyNames d.property = false) :
    ∃ r' s', compileBlock settings context s.toStyle = .ok r' ∧
      resolveStyle settings .ltr s.toStyle = .ok s' ∧ s'.items = s.items ∧
        r'.identifier = r.identifier ∧ r'.ltr = r.ltr := by
  obtain ⟨tidied, s₁, t, htidied, hs₁, ht, rfl⟩ := exists_of_compileBlock h
  obtain rfl : s = s₁ := Except.ok.inj (hs.symm.trans hs₁)
  refine exists_compileBlock_toStyle ?_ htidied (fun d hd => resolved_of_mem hs hd) ?_
    (nodup_of_resolveStyle hs) ht
  · obtain ⟨entry, rest, rfl⟩ := exists_cons_of_compileBlock h
    exact declarations_ne_nil_of_resolveStyle hs
  · intro d hd
    obtain ⟨htime, hnames⟩ := hproperties d hd
    exact canonical_of_mem hentries hs hd hnames (domain?_ne_time htime)

/-- A logical name, a shorthand that stays as it is, one that does not, a keyword with a mark,
quoted content and a custom property, all checked strictly. -/
theorem recompile_of_mixed_entries :
    ∃ (r : Rule) (s : DeclarationSet) (r' : Rule) (s' : DeclarationSet),
      compileBlock { resolution := .physical, strictValues := true, strictProperties := true }
          { pseudos := [" :hover "], atRules := ["@media  print"] }
          (.map [(.text "start", .int 3), (.text "marginHorizontal", .text "1px 2px  3px"),
            (.text "borderStyle", .text "solid none"), (.text "float", .text " START !Important"),
            (.text "content", .text "say \"hi\""), (.text "--Main", .text "a  b")]) = .ok r ∧
        s.items = [("left", "3px"), ("margin-horizontal", "1px 2px 3px"),
          ("border-top-style", "solid"), ("border-right-style", "none"),
          ("border-bottom-style", "solid"), ("border-left-style", "none"),
          ("float", "left !important"), ("content", "\"say \\\"hi\\\"\""), ("--Main", "a b")] ∧
        compileBlock { resolution := .physical, strictValues := true, strictProperties := true }
          { pseudos := [" :hover "], atRules := ["@media  print"] } s.toStyle = .ok r' ∧
        resolveStyle { resolution := .physical, strictValues := true, strictProperties := true }
          .ltr s.toStyle = .ok s' ∧
        s'.items = s.items ∧ r'.identifier = r.identifier ∧ r'.ltr = r.ltr := by
  have hrun : (do
      let r ← compileBlock
        { resolution := .physical, strictValues := true, strictProperties := true }
        { pseudos := [" :hover "], atRules := ["@media  print"] }
        (.map [(.text "start", .int 3), (.text "marginHorizontal", .text "1px 2px  3px"),
          (.text "borderStyle", .text "solid none"), (.text "float", .text " START !Important"),
          (.text "content", .text "say \"hi\""), (.text "--Main", .text "a  b")])
      let s ← resolveStyle
        { resolution := .physical, strictValues := true, strictProperties := true } .ltr
        (.map [(.text "start", .int 3), (.text "marginHorizontal", .text "1px 2px  3px"),
          (.text "borderStyle", .text "solid none"), (.text "float", .text " START !Important"),
          (.text "content", .text "say \"hi\""), (.text "--Main", .text "a  b")])
      pure (r.rtl.isSome, s.items) : Outcome (Bool × List (String × String))) =
      .ok (true, [("left", "3px"), ("margin-horizontal", "1px 2px 3px"),
        ("border-top-style", "solid"), ("border-right-style", "none"),
        ("border-bottom-style", "solid"), ("border-left-style", "none"),
        ("float", "left !important"), ("content", "\"say \\\"hi\\\"\""), ("--Main", "a b")]) :=
    eq_ok_of_toOption (by decide +kernel)
  simp only [bind_eq_ok, pure_eq_ok, Prod.mk.injEq] at hrun
  obtain ⟨r, hr, s, hs, _, hitems⟩ := hrun
  have hproperties : ∀ d ∈ s.declarations,
      d.property ∉ timeProperties ∧ takesPropertyNames d.property = false := by
    have hall : ∀ item ∈ s.items,
        item.1 ∉ timeProperties ∧ takesPropertyNames item.1 = false := by
      rw [hitems]
      decide +kernel
    exact fun d hd => hall (d.property, d.value) (List.mem_map_of_mem hd)
  have hrecompile := fun hentries => recompile_of_compile hentries hr hs hproperties
  obtain ⟨r', s', h⟩ := hrecompile <| by
    intro name value hmem
    simp only [List.mem_cons, Prod.mk.injEq, Key.text.injEq, List.not_mem_nil, or_false] at hmem
    have hascii : ∀ name ∈ ["start", "marginHorizontal", "borderStyle", "float", "content",
        "--Main"], IsAscii name.toList := by decide +kernel
    rcases hmem with ⟨rfl, rfl⟩ | ⟨rfl, rfl⟩ | ⟨rfl, rfl⟩ | ⟨rfl, rfl⟩ | ⟨rfl, rfl⟩ | ⟨rfl, rfl⟩
    · exact ⟨hascii _ (by simp), Or.inr ⟨3, rfl⟩, fun h => absurd h (by decide)⟩
    all_goals exact ⟨hascii _ (by simp), Or.inl ⟨_, rfl⟩, fun _ => ⟨_, rfl⟩⟩
  exact ⟨r, s, r', s', hr, hitems, h⟩

/-- An integer given as generated content comes back as a text, and is quoted. -/
example :
    (do
      let s ← resolveStyle {} .ltr (.map [(.text "content", .int 5)])
      let s' ← resolveStyle {} .ltr s.toStyle
      pure (s.items, s'.items) :
        Outcome (List (String × String) × List (String × String))).toOption =
      some ([("content", "5")], [("content", "\"5\"")]) := by
  decide +kernel

end AtomicStyle
