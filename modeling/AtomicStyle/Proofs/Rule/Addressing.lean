import AtomicStyle.Proofs.Rule.Variant

/-!
# What the identifier of a rule determines

The identifier of a class rule is derived from its left-to-right text alone.  Two rules with one
such text have one identifier, and a sheet keeps the first of them.  This file says what that text
determines of the right-to-left text.

**Declarations.**  The text determines the properties and the values, if it shows where each of
them ends (`items_eq_of_emitDeclarations_eq`).

**Counterparts.**  Sets that read alike from left to right have counterparts that their text tells
apart, so the right-to-left texts are the same exactly when the sets agree, declaration by
declaration, on what they are turned to (`rtl_ruleOf_eq_iff`).

**Resolution.**  Under logical resolution sets that read alike always agree.  Under physical
resolution they need not: a logical and a physical name may be emitted under one property, and
turned to different ones.
-/

namespace AtomicStyle

open Css Property

variable {settings : Settings}

/-! ## Sets that read alike from left to right -/

section

variable {s t u v : DeclarationSet}

/-- The matching declarations of sets with the same items, with what they remember. -/
lemma forall₂_resolved (hs : ∀ d ∈ s.declarations, d.Resolved settings .ltr)
    (ht : ∀ d ∈ t.declarations, d.Resolved settings .ltr) (hitems : s.items = t.items) :
    List.Forall₂ (fun d e => d.Resolved settings .ltr ∧ e.Resolved settings .ltr ∧
      d.property = e.property ∧ d.value = e.value) s.declarations t.declarations :=
  forall₂_and_of_forall hs ht (items_eq_iff.mp hitems)

lemma items_counterpart_eq_iff (hs : ∀ d ∈ s.declarations, d.Resolved settings .ltr)
    (ht : ∀ d ∈ t.declarations, d.Resolved settings .ltr) (hitems : s.items = t.items)
    (hu : counterpart settings s = .ok u) (hv : counterpart settings t = .ok v) :
    u.items = v.items ↔ List.Forall₂ (Agree settings) s.declarations t.declarations := by
  rw [items_eq_iff]
  refine forall₂_iff_of_square ?_ (forall₂_resolved hs ht hitems) (forall₂_counterpart hu)
    (forall₂_counterpart hv)
  rintro d e d' e' ⟨hd, he, hproperty, hvalue⟩ hd' he'
  exact counterpart_eq_iff_agree hd he hproperty hvalue hd' he'

/-- The counterparts of sets with the same items are told apart by their text. -/
lemma items_counterpart_eq_of_emitDeclarations_eq
    (hs : ∀ d ∈ s.declarations, d.Resolved settings .ltr)
    (ht : ∀ d ∈ t.declarations, d.Resolved settings .ltr) (hitems : s.items = t.items)
    (hu : counterpart settings s = .ok u) (hv : counterpart settings t = .ok v)
    (htext : emitDeclarations u = emitDeclarations v) : u.items = v.items := by
  have hapart : List.Forall₂ ToldApart u.declarations v.declarations := by
    refine forall₂_of_square ?_ (forall₂_resolved hs ht hitems) (forall₂_counterpart hu)
      (forall₂_counterpart hv)
    rintro d e d' e' ⟨hd, he, hproperty, hvalue⟩ hd' he'
    constructor
    · rw [property_of_counterpartDeclaration hd', property_of_counterpartDeclaration he']
      rcases property_turned_eq_or_isRendering hd he hproperty with hname | ⟨hdname, hename⟩
      · exact Or.inl hname
      · exact Or.inr ⟨hdname.isPlainName, hename.isPlainName⟩
    · rw [count_semicolon_counterpart hd hd', count_semicolon_counterpart he he', hvalue]
  exact (emitDeclarations_eq_iff hapart).mp htext

end

/-! ## Rules -/

/-- The identifier depends on the text of the declarations and on the context alone. -/
lemma identifier_ruleOf_eq {s t : DeclarationSet} (htext : emitDeclarations s = emitDeclarations t)
    (other other' : Option DeclarationSet) (context : Context) :
    (ruleOf settings s other context).identifier =
      (ruleOf settings t other' context).identifier := by
  simp only [ruleOf, canonicalText, htext]

/-- **Rules with the same left-to-right declarations have the same right-to-left text exactly when
their declarations agree.** -/
theorem rtl_ruleOf_eq_iff {s t u v : DeclarationSet}
    (hs : ∀ d ∈ s.declarations, d.Resolved settings .ltr)
    (ht : ∀ d ∈ t.declarations, d.Resolved settings .ltr) (hitems : s.items = t.items)
    (hu : counterpart settings s = .ok u) (hv : counterpart settings t = .ok v)
    (context : Context) :
    (ruleOf settings s (if u.items = s.items then none else some u) context).rtl =
        (ruleOf settings t (if v.items = t.items then none else some v) context).rtl ↔
      List.Forall₂ (Agree settings) s.declarations t.declarations := by
  have hname : (ruleOf settings s none context).identifier =
      (ruleOf settings t none context).identifier :=
    identifier_ruleOf_eq (emitDeclarations_eq_of_items_eq hitems) none none context
  simp only [ruleOf] at hname
  rw [← items_counterpart_eq_iff hs ht hitems hu hv]
  simp only [ruleOf, hname]
  -- a rule without a right-to-left text is one whose counterpart reads like the set
  by_cases hu' : u.items = s.items <;> by_cases hv' : v.items = t.items
  · simp [hu', hv', hitems]
  · have hne : ¬s.items = v.items := fun heq => hv' (heq.symm.trans hitems)
    simp [hu', hv', hne]
  · have hne : ¬u.items = t.items := fun heq => hu' (heq.trans hitems.symm)
    simp [hu', hv', hne]
  · simp only [hu', hv', if_false, Option.map_some, Option.some.injEq, emitRule_eq_iff]
    exact ⟨items_counterpart_eq_of_emitDeclarations_eq hs ht hitems hu hv,
      emitDeclarations_eq_of_items_eq⟩

lemma forall₂_agree_of_logical (h : settings.resolution = .logical) {s t : DeclarationSet}
    (hs : ∀ d ∈ s.declarations, d.Resolved settings .ltr)
    (ht : ∀ d ∈ t.declarations, d.Resolved settings .ltr) (hitems : s.items = t.items) :
    List.Forall₂ (Agree settings) s.declarations t.declarations := by
  refine (forall₂_resolved hs ht hitems).imp ?_
  rintro d e ⟨hd, he, hproperty, hvalue⟩
  obtain ⟨hdproperty, hdvalue⟩ := turned_of_logical h hd
  obtain ⟨heproperty, hevalue⟩ := turned_of_logical h he
  rw [Agree, hdproperty, hdvalue, heproperty, hevalue]
  exact ⟨hproperty, hvalue⟩

/-! ## What the text determines -/

/-- The text of the declarations shows where their names and values end: no name holds a colon, and
no value with a declaration behind it ends in an open escape. -/
structure Separable (ds : List Declaration) : Prop where
  names : ∀ d ∈ ds, ':' ∉ d.property.toList
  values : ∀ d ∈ ds.dropLast, endsInEscape d.value.toList = false

lemma separable_cons {d : Declaration} {ds : List Declaration} :
    Separable (d :: ds) ↔ (':' ∉ d.property.toList ∧
      (ds = [] ∨ endsInEscape d.value.toList = false)) ∧ Separable ds := by
  constructor
  · rintro ⟨hnames, hvalues⟩
    obtain ⟨hname, hnames⟩ := List.forall_mem_cons.mp hnames
    cases ds with
    | nil => exact ⟨⟨hname, Or.inl rfl⟩, hnames, by simp⟩
    | cons e es =>
        rw [List.dropLast_cons_cons, List.forall_mem_cons] at hvalues
        exact ⟨⟨hname, Or.inr hvalues.1⟩, hnames, hvalues.2⟩
  · rintro ⟨⟨hname, hvalue⟩, hnames, hvalues⟩
    refine ⟨List.forall_mem_cons.mpr ⟨hname, hnames⟩, ?_⟩
    cases ds with
    | nil => simp
    | cons e es =>
        rw [List.dropLast_cons_cons, List.forall_mem_cons]
        exact ⟨hvalue.resolve_left (List.cons_ne_nil e es), hvalues⟩

/-- Separable declarations with safe values are the same if their texts are. -/
lemma forall₂_eq_of_separable {ds es : List Declaration}
    (hds : ∀ d ∈ ds, terminator? d.value.toList = none)
    (hes : ∀ e ∈ es, terminator? e.value.toList = none)
    (hds' : Separable ds) (hes' : Separable es)
    (htext : terminated (ds.map Declaration.piece) = terminated (es.map Declaration.piece)) :
    List.Forall₂ (fun d e => d.property = e.property ∧ d.value = e.value) ds es := by
  induction ds generalizing es with
  | nil =>
      cases es with
      | nil => exact .nil
      | cons e es => simp [terminated] at htext
  | cons d ds ih =>
      cases es with
      | nil => simp [terminated] at htext
      | cons e es =>
          obtain ⟨hd, hds⟩ := List.forall_mem_cons.mp hds
          obtain ⟨he, hes⟩ := List.forall_mem_cons.mp hes
          obtain ⟨⟨hdname, hdvalue⟩, hds'⟩ := separable_cons.mp hds'
          obtain ⟨⟨hename, hevalue⟩, hes'⟩ := separable_cons.mp hes'
          simp only [List.map_cons, terminated_cons, Declaration.piece, List.append_assoc,
            List.cons_append] at htext
          -- the name ends at the first colon, the value at the first terminator behind it
          obtain ⟨hname, hbehind⟩ := eq_of_append_colon hdname hename htext
          obtain ⟨hvalue, hrest⟩ := eq_of_append_terminator hd he
            (hdvalue.imp_left fun hnil => by rw [hnil]; rfl)
            (hevalue.imp_left fun hnil => by rw [hnil]; rfl) hbehind
          exact .cons ⟨String.toList_inj.mp hname, String.toList_inj.mp hvalue⟩
            (ih hds hes hds' hes' hrest)

/-- **The text determines the items of separable declarations.** -/
theorem items_eq_of_emitDeclarations_eq {s t : DeclarationSet}
    (hs : ∀ d ∈ s.declarations, d.Resolved settings .ltr)
    (ht : ∀ d ∈ t.declarations, d.Resolved settings .ltr)
    (hs' : Separable s.declarations) (ht' : Separable t.declarations)
    (htext : emitDeclarations s = emitDeclarations t) : s.items = t.items := by
  refine items_eq_iff.mpr (forall₂_eq_of_separable (fun d hd => (hs d hd).terminator?_value)
    (fun d hd => (ht d hd).terminator?_value) hs' ht' ?_)
  rw [← toList_emitDeclarations, ← toList_emitDeclarations, htext]

/-! ## Rules with one identifier -/

/-- **What rules with one left-to-right text have in common.**  They have one identifier.  Their
declarations are the same if the text shows where these end.  Rules with the same declarations have
the same right-to-left text exactly when their declarations agree, which under logical resolution
they do. -/
theorem rtl_eq_iff_of_emitDeclarations_eq {context : Context} {style₁ style₂ : Value}
    {r₁ r₂ : Rule} {s₁ s₂ : DeclarationSet}
    (h₁ : compileBlock settings context style₁ = .ok r₁)
    (h₂ : compileBlock settings context style₂ = .ok r₂)
    (hs₁ : resolveStyle settings .ltr style₁ = .ok s₁)
    (hs₂ : resolveStyle settings .ltr style₂ = .ok s₂)
    (htext : emitDeclarations s₁ = emitDeclarations s₂) :
    r₁.identifier = r₂.identifier ∧
      (Separable s₁.declarations → Separable s₂.declarations → s₁.items = s₂.items) ∧
      (s₁.items = s₂.items →
        (r₁.rtl = r₂.rtl ↔ List.Forall₂ (Agree settings) s₁.declarations s₂.declarations) ∧
          (settings.resolution = .logical → r₁.rtl = r₂.rtl)) := by
  obtain ⟨c₁, s₁', t₁, hc₁, hs₁', ht₁, rfl⟩ := exists_of_compileBlock h₁
  obtain ⟨c₂, s₂', t₂, hc₂, hs₂', ht₂, rfl⟩ := exists_of_compileBlock h₂
  obtain rfl : c₁ = c₂ := Except.ok.inj (hc₁.symm.trans hc₂)
  obtain rfl : s₁ = s₁' := Except.ok.inj (hs₁.symm.trans hs₁')
  obtain rfl : s₂ = s₂' := Except.ok.inj (hs₂.symm.trans hs₂')
  have hresolved₁ : ∀ d ∈ s₁.declarations, d.Resolved settings .ltr :=
    fun d hd => resolved_of_mem hs₁ hd
  have hresolved₂ : ∀ d ∈ s₂.declarations, d.Resolved settings .ltr :=
    fun d hd => resolved_of_mem hs₂ hd
  refine ⟨identifier_ruleOf_eq htext _ _ _, fun hseparable₁ hseparable₂ => ?_, fun hitems => ?_⟩
  · exact items_eq_of_emitDeclarations_eq hresolved₁ hresolved₂ hseparable₁ hseparable₂ htext
  · have hrtl := rtl_ruleOf_eq_iff hresolved₁ hresolved₂ hitems ht₁ ht₂ c₁
    refine ⟨hrtl, fun hlogical => hrtl.mpr ?_⟩
    exact forall₂_agree_of_logical hlogical hresolved₁ hresolved₂ hitems

/-- Two names of one edge: the rules agree and share their right-to-left text. -/
theorem rtl_eq_of_two_names :
    ∃ r₁ r₂ : Rule,
      compileBlock { resolution := .physical } {} (.map [(.text "start", .text "1px")]) = .ok r₁ ∧
        compileBlock { resolution := .physical } {}
          (.map [(.text "insetInlineStart", .text "1px")]) = .ok r₂ ∧
        r₁.identifier = r₂.identifier ∧ r₁.rtl = r₂.rtl := by
  have hrun : (do
      let r₁ ← compileBlock { resolution := .physical } {} (.map [(.text "start", .text "1px")])
      let r₂ ← compileBlock { resolution := .physical } {}
        (.map [(.text "insetInlineStart", .text "1px")])
      let s₁ ← resolveStyle { resolution := .physical } .ltr (.map [(.text "start", .text "1px")])
      let s₂ ← resolveStyle { resolution := .physical } .ltr
        (.map [(.text "insetInlineStart", .text "1px")])
      pure (r₁.ltr, r₂.ltr, s₁, s₂) :
        Outcome (String × String × DeclarationSet × DeclarationSet)) =
      .ok (".xo4pql7-A\x7bleft:1px;\x7d", ".xo4pql7-A\x7bleft:1px;\x7d",
        .ofList [⟨"left", "1px", "start", none⟩],
        .ofList [⟨"left", "1px", "inset-inline-start", none⟩]) :=
    eq_ok_of_toOption (by decide +kernel)
  simp only [bind_eq_ok, pure_eq_ok, Prod.mk.injEq] at hrun
  obtain ⟨r₁, h₁, r₂, h₂, _, hs₁, _, hs₂, _, _, rfl, rfl⟩ := hrun
  have hseparable : ∀ origin, Separable [(⟨"left", "1px", origin, none⟩ : Declaration)] :=
    fun origin => ⟨by simp, by simp⟩
  obtain ⟨hidentifier, hitems, hagree⟩ := rtl_eq_iff_of_emitDeclarations_eq h₁ h₂ hs₁ hs₂ rfl
  have hrtl := (hagree (hitems (hseparable _) (hseparable _))).1
  refine ⟨r₁, r₂, h₁, h₂, hidentifier, hrtl.mpr (.cons ?_ .nil)⟩
  exact ⟨rfl, rfl⟩

/-- A logical and a physical name of one edge: the rules share their identifier, and only one of
them has a right-to-left text. -/
theorem rtl_ne_of_logical_and_physical :
    ∃ (r₁ r₂ : Rule) (s₁ s₂ : DeclarationSet),
      compileBlock { resolution := .physical } {} (.map [(.text "start", .text "1px")]) = .ok r₁ ∧
        compileBlock { resolution := .physical } {} (.map [(.text "left", .text "1px")]) = .ok r₂ ∧
        resolveStyle { resolution := .physical } .ltr (.map [(.text "start", .text "1px")]) =
          .ok s₁ ∧
        resolveStyle { resolution := .physical } .ltr (.map [(.text "left", .text "1px")]) =
          .ok s₂ ∧
        emitDeclarations s₁ = emitDeclarations s₂ ∧ r₁.identifier = r₂.identifier ∧
        r₁.rtl ≠ r₂.rtl := by
  have hrun : (do
      let r₁ ← compileBlock { resolution := .physical } {} (.map [(.text "start", .text "1px")])
      let r₂ ← compileBlock { resolution := .physical } {} (.map [(.text "left", .text "1px")])
      let s₁ ← resolveStyle { resolution := .physical } .ltr (.map [(.text "start", .text "1px")])
      let s₂ ← resolveStyle { resolution := .physical } .ltr (.map [(.text "left", .text "1px")])
      pure (decide (emitDeclarations s₁ = emitDeclarations s₂),
        decide (r₁.identifier = r₂.identifier), r₁.rtl, r₂.rtl) :
        Outcome (Bool × Bool × Option String × Option String)) =
      .ok (true, true, some ".xo4pql7-A\x7bright:1px;\x7d", none) :=
    eq_ok_of_toOption (by decide +kernel)
  simp only [bind_eq_ok, pure_eq_ok, Prod.mk.injEq, decide_eq_true_eq] at hrun
  obtain ⟨r₁, h₁, r₂, h₂, s₁, hs₁, s₂, hs₂, htext, hidentifier, hrtl₁, hrtl₂⟩ := hrun
  refine ⟨r₁, r₂, s₁, s₂, h₁, h₂, hs₁, hs₂, htext, hidentifier, ?_⟩
  rw [hrtl₁, hrtl₂]
  simp

/-- A name that holds a colon and a semicolon reads like two declarations: the cursor is flipped
in the one rule and not found in the other. -/
example :
    (do
      let r₁ ← compileBlock {} {}
        (.map [(.text "a", .text "b"), (.text "cursor", .text "e-resize")])
      let r₂ ← compileBlock {} {} (.map [(.text "a:b;cursor", .text "e-resize")])
      pure (r₁.ltr == r₂.ltr, r₁.rtl == r₂.rtl) : Outcome (Bool × Bool)).toOption =
        some (true, false) := by
  decide +kernel

/-- So does a value behind one that ends in an open escape. -/
example :
    (do
      let r₁ ← compileBlock {} {}
        (.map [(.text "color", .text "red\\"), (.text "cursor", .text "e-resize")])
      let r₂ ← compileBlock {} {} (.map [(.text "color", .text "red\\;cursor:e-resize")])
      pure (r₁.ltr == r₂.ltr, r₁.rtl == r₂.rtl) : Outcome (Bool × Bool)).toOption =
        some (true, false) := by
  decide +kernel

end AtomicStyle
