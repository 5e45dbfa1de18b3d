import AtomicStyle.Document
import AtomicStyle.Proofs.Matching
import AtomicStyle.Proofs.Rule.Parts
import AtomicStyle.Proofs.Sheet
import AtomicStyle.Proofs.Text.Line

/-!
# The manifest and the sheet of a document

A compiled document tells its identifiers twice: the sheet holds a rule for each, and the manifest
names them, those of animations one by one and those of a property as one text with spaces between.
This file shows that the two tell the same.

**Tokens.**  `Bundle.tokens` reads the manifest: the identifiers of the animations, and behind
them the texts of the properties cut at spaces.  No identifier holds a space, whatever prefix the
settings ask for (`space_not_mem_identifier`), so cutting gives back what was joined
(`classTokens_classText?`).

**Leaves.**  `sectionLeaves` lists what is to be compiled of a section of namespaces: the leaves of
its conditional values that are not absent.  The rules of the compiled namespaces match them one by
one, and so do the tokens of their class maps (`exists_of_compileNamespaceEntries`).

**The sheet.**  It holds a rule for each identifier that is told, and for no other
(`tokens_of_compileDocument`).
-/

namespace AtomicStyle

open Compiling

variable {settings : Settings}

/-! ## Identifiers hold no space -/

/-- **No identifier holds a space.** -/
theorem space_not_mem_identifier (category : Category) (text : String) (p : ClassPrefix) :
    ' ' ∉ (identifier category text p.text).toList := by
  intro hspace
  exact absurd (isIdentifierChar_of_mem_identifier hspace) (by decide)

/-! ## Tokens -/

/-- The classes that a text of classes tells. -/
def classTokens : Option String → List String
  | none => []
  | some text => (text.toList.splitOn ' ').map String.ofList

/-- The classes that a class map tells, property by property. -/
def ClassMap.tokens (map : ClassMap) : List String :=
  map.flatMap fun entry => classTokens entry.2

/-- The identifiers that the manifest of a bundle tells, in order. -/
def Bundle.tokens (b : Bundle) : List String :=
  b.keyframes.map Prod.snd ++ b.styles.flatMap fun entry => ClassMap.tokens entry.2

/-- Texts without spaces that were joined with spaces are told apart again. -/
lemma classTokens_classText? {names : List String} (h : ∀ name ∈ names, ' ' ∉ name.toList) :
    classTokens (classText? names) = names := by
  cases names with
  | nil => rfl
  | cons name rest =>
      rw [classText?, List.isEmpty_cons, if_neg (by simp)]
      exact Text.splitOn_intercalate (by decide) (List.cons_ne_nil name rest) h

/-! ## Leaves -/

/-- What one rule of a namespace is compiled from. -/
structure Leaf where
  property : Key
  context : Context
  value : Value

/-- The leaf of a property at a place that a walk has met, unless it is absent. -/
def leaf? (property : Key) : Context × Value → Option Leaf
  | (_, .null) => none
  | (context, value) => some { property := property, context := context, value := value }

/-- The rule of a leaf. -/
def Leaf.compile (settings : Settings) (l : Leaf) : Outcome Rule :=
  compileBlock settings l.context (.map [(l.property, l.value)])

/-- The leaves of the properties of a namespace, if each walk comes to its end. -/
def namespaceLeaves : List (Key × Value) → Outcome (List Leaf)
  | [] => .ok []
  | (property, value) :: rest => do
    let met ← (walk property {} value).toOutcome
    let others ← namespaceLeaves rest
    pure (met.filterMap (leaf? property) ++ others)

/-- The leaves of the namespaces of a section in order. -/
def sectionLeaves : List (Key × Value) → Outcome (List Leaf)
  | [] => .ok []
  | (_, style) :: rest => do
    let entries ← entriesOf style
    let leaves ← namespaceLeaves entries
    let others ← sectionLeaves rest
    pure (leaves ++ others)

/-- The leaves compile to the rules, one by one. -/
def CompileTo (settings : Settings) (leaves : List Leaf) (rules : List Rule) : Prop :=
  List.Forall₂ (fun l r => l.compile settings = .ok r) leaves rules

lemma compileTo_of_compileLeaves {property : Key} {met : List (Context × Value)}
    {rules : List Rule} (h : compileLeavesIn (m := Outcome) settings property met = .ok rules) :
    CompileTo settings (met.filterMap (leaf? property)) rules := by
  induction met generalizing rules with
  | nil =>
      obtain rfl := Except.ok.inj h
      exact .nil
  | cons place rest ih =>
      obtain ⟨context, value⟩ := place
      have hleaf : ∀ {rules : List Rule}, (do
            let rule ← compileBlock settings context (.map [(property, value)])
            let rules ← compileLeavesIn (m := Outcome) settings property rest
            pure (rule :: rules)) = .ok rules →
          CompileTo settings
            ({ property := property, context := context, value := value } ::
              rest.filterMap (leaf? property)) rules := by
        intro rules h
        obtain ⟨rule, hrule, h⟩ := bind_eq_ok.mp h
        obtain ⟨others, hothers, h⟩ := bind_eq_ok.mp h
        obtain rfl := pure_eq_ok.mp h
        exact .cons hrule (ih hothers)
      cases value with
      | null => exact ih h
      | _ => exact hleaf h

lemma identifier_of_compileBlock {context : Context} {style : Value} {rule : Rule}
    (h : compileBlock settings context style = .ok rule) :
    ∃ text, rule.identifier = identifier .block text settings.classPrefix.text := by
  simp only [compileBlock, compileBlockIn, note_bind, bind_eq_ok, pure_eq_ok] at h
  obtain ⟨_, _, _, _, _, _, _, _, _, _, rfl⟩ := h
  exact ⟨_, rfl⟩

/-- The tokens of the classes of rules that leaves compile to are their identifiers. -/
lemma classTokens_of_compileTo {leaves : List Leaf} {rules : List Rule}
    (h : CompileTo settings leaves rules) :
    classTokens (classText? (rules.map Rule.identifier)) = rules.map Rule.identifier := by
  refine classTokens_classText? (List.forall_mem_map.mpr fun rule hrule => ?_)
  obtain ⟨l, _, hl⟩ := exists_of_mem_forall₂ h hrule
  obtain ⟨text, hname⟩ := identifier_of_compileBlock hl
  rw [hname]
  exact space_not_mem_identifier .block text settings.classPrefix

/-- The rules of a namespace match its leaves, and its class map tells their identifiers. -/
lemma exists_of_compileProperties {entries : List (Key × Value)} {classes : ClassMap}
    {rules : List Rule}
    (h : compilePropertiesIn (m := Outcome) settings entries = .ok (classes, rules)) :
    ∃ leaves, namespaceLeaves entries = .ok leaves ∧ CompileTo settings leaves rules ∧
      classes.tokens = rules.map Rule.identifier := by
  induction entries generalizing classes rules with
  | nil =>
      obtain ⟨rfl, rfl⟩ := Prod.mk.inj (Except.ok.inj h)
      exact ⟨[], rfl, .nil, rfl⟩
  | cons entry rest ih =>
      obtain ⟨property, value⟩ := entry
      obtain ⟨first, hfirst, h⟩ := bind_eq_ok.mp h
      obtain ⟨⟨otherClasses, others⟩, hothers, h⟩ := bind_eq_ok.mp h
      obtain ⟨rfl, rfl⟩ := Prod.mk.inj (pure_eq_ok.mp h)
      obtain ⟨leaves, hleaves, hcompile, htokens⟩ := ih hothers
      obtain ⟨made, hmade, hfinish⟩ := bind_eq_ok.mp hfirst
      have hstopped : (walk property {} value).stopped = none ∧ made = first := by
        unfold Walk.finish at hfinish
        split at hfinish
        · cases hfinish
        · exact ⟨‹_›, Except.ok.inj hfinish⟩
      obtain ⟨hstopped, rfl⟩ := hstopped
      have hmet : (walk property {} value).toOutcome = .ok (walk property {} value).leaves := by
        rw [Walk.toOutcome, Walk.finish, hstopped]
      have hmade := compileTo_of_compileLeaves hmade
      refine ⟨_, ?_, List.rel_append hmade hcompile, ?_⟩
      · rw [namespaceLeaves, hmet, hleaves]
        rfl
      · rw [ClassMap.tokens, List.flatMap_cons, classTokens_of_compileTo hmade, List.map_append]
        exact congrArg _ htokens

/-- **The rules of compiled namespaces match the leaves of the section, and the class maps tell
their identifiers.** -/
theorem exists_of_compileNamespaceEntries {entries : List (Key × Value)}
    {namespaces : List CompiledNamespace}
    (h : compileNamespaceEntriesIn (m := Outcome) settings entries = .ok namespaces) :
    ∃ leaves, sectionLeaves entries = .ok leaves ∧
      CompileTo settings leaves (namespaces.flatMap CompiledNamespace.rules) ∧
        (namespaces.flatMap fun n => n.classes.tokens) =
          (namespaces.flatMap CompiledNamespace.rules).map Rule.identifier := by
  induction entries generalizing namespaces with
  | nil =>
      obtain rfl := Except.ok.inj h
      exact ⟨[], rfl, .nil, rfl⟩
  | cons entry rest ih =>
      obtain ⟨name, style⟩ := entry
      obtain ⟨first, hfirst, h⟩ := bind_eq_ok.mp h
      obtain ⟨others, hothers, h⟩ := bind_eq_ok.mp h
      obtain rfl := pure_eq_ok.mp h
      obtain ⟨leaves, hleaves, hcompile, htokens⟩ := ih hothers
      cases style with
      | map styleEntries =>
          obtain ⟨⟨classes, rules⟩, hrules, hfirst⟩ := bind_eq_ok.mp hfirst
          obtain rfl := pure_eq_ok.mp hfirst
          obtain ⟨met, hmet, hmade, htold⟩ := exists_of_compileProperties hrules
          refine ⟨met ++ leaves, ?_, List.rel_append hmade hcompile, ?_⟩
          · simp only [sectionLeaves, entriesOf, bind_eq_ok, pure_eq_ok]
            exact ⟨_, rfl, met, hmet, leaves, hleaves, rfl⟩
          · rw [List.flatMap_cons, List.flatMap_cons, List.map_append, htokens]
            exact congrArg (· ++ _) htold
      | _ => exact absurd hfirst (reject_ne_ok _ _)

/-! ## Documents -/

lemma forall₂_of_compileAnimationEntries {sheet : Sheet} {entries : List (Key × Value)}
    {animations : List (Key × Rule)}
    (h : compileAnimationEntriesIn (m := Outcome) settings sheet entries = .ok animations) :
    List.Forall₂ (fun e r => compileKeyframes settings e.2 = .ok r) entries
      (animations.map Prod.snd) := by
  induction entries generalizing sheet animations with
  | nil =>
      obtain rfl := Except.ok.inj h
      exact .nil
  | cons entry rest ih =>
      simp only [compileAnimationEntriesIn, leave_bind, bind_eq_ok, pure_eq_ok] at h
      obtain ⟨rule, hrule, others, hothers, rfl⟩ := h
      exact .cons hrule (ih hothers)

/-- The rules that a bundle was made of, under their identifiers. -/
lemma sheet_bundle (animations : List (Key × Rule)) (namespaces : List CompiledNamespace) :
    (bundle animations namespaces).sheet = ({} : Sheet).addAll
      ((animations.map Prod.snd ++ namespaces.flatMap CompiledNamespace.rules).map
        Rule.entry) := by
  rw [bundle, animationSheet, namespaceRules, ← Sheet.addAll_append, List.map_append,
    List.map_map, List.map_flatMap]
  rfl

lemma tokens_bundle (animations : List (Key × Rule)) {namespaces : List CompiledNamespace}
    (h : (namespaces.flatMap fun n => n.classes.tokens) =
      (namespaces.flatMap CompiledNamespace.rules).map Rule.identifier) :
    (bundle animations namespaces).tokens =
      (animations.map Prod.snd ++ namespaces.flatMap CompiledNamespace.rules).map
        Rule.identifier := by
  rw [Bundle.tokens, bundle, List.flatMap_map, h, List.map_append, List.map_map, List.map_map]
  rfl

/-- Each rule of a document's sheet is that of an animation or of a leaf. -/
lemma exists_of_mem_sheet {document : List (Key × Value)} {b : Bundle}
    (h : compileDocument settings document = .ok b) :
    ∃ definitions styles leaves,
      entriesOf (sectionValue document "keyframes") = .ok definitions ∧
      entriesOf (sectionValue document "styles") = .ok styles ∧ sectionLeaves styles = .ok leaves ∧
      ∀ e ∈ b.sheet.entries,
        (∃ entry ∈ definitions, compileKeyframes settings entry.2 = .ok e.2) ∨
          ∃ l ∈ leaves, l.compile settings = .ok e.2 := by
  obtain ⟨_, _, h⟩ := bind_eq_ok.mp h
  obtain ⟨animations, hanimations, h⟩ := bind_eq_ok.mp h
  obtain ⟨namespaces, hnamespaces, h⟩ := bind_eq_ok.mp h
  obtain rfl := pure_eq_ok.mp h
  obtain ⟨definitions, hdefinitions, hanimations⟩ := bind_eq_ok.mp hanimations
  obtain ⟨styles, hstyles, hnamespaces⟩ := bind_eq_ok.mp hnamespaces
  obtain ⟨leaves, hleaves, hcompile, _⟩ := exists_of_compileNamespaceEntries hnamespaces
  refine ⟨definitions, styles, leaves, hdefinitions, hstyles, hleaves, fun e he => ?_⟩
  rw [sheet_bundle] at he
  obtain ⟨rule, hrule, rfl⟩ := List.mem_map.mp (Sheet.mem_of_mem_addAll he)
  rcases List.mem_append.mp hrule with hrule | hrule
  · exact Or.inl (exists_of_mem_forall₂ (forall₂_of_compileAnimationEntries hanimations) hrule)
  · exact Or.inr (exists_of_mem_forall₂ hcompile hrule)

/-- **The manifest and the sheet of a document agree.**  The manifest tells the identifiers of the
rules that the animations and the leaves of the document compile to, one by one and in order.  The
sheet holds a rule of that identifier for each of them where it is told first, and no other rule,
so that the number of rules is the number of different identifiers. -/
theorem tokens_of_compileDocument {document : List (Key × Value)} {b : Bundle}
    (h : compileDocument settings document = .ok b) :
    ∃ definitions styles leaves animations rules,
      entriesOf (sectionValue document "keyframes") = .ok definitions ∧
        entriesOf (sectionValue document "styles") = .ok styles ∧
        sectionLeaves styles = .ok leaves ∧
        List.Forall₂ (fun e r => compileKeyframes settings e.2 = .ok r) definitions animations ∧
        CompileTo settings leaves rules ∧
        b.tokens = (animations ++ rules).map Rule.identifier ∧
        b.sheet.identifiers = b.tokens.eraseDups ∧
        b.ruleCount = b.tokens.toFinset.card ∧
        (∀ name, name ∈ b.tokens ↔ name ∈ b.sheet.identifiers) ∧
        ∀ e ∈ b.sheet.entries, e.2 ∈ animations ++ rules ∧ e.2.identifier = e.1 := by
  obtain ⟨_, _, h⟩ := bind_eq_ok.mp h
  obtain ⟨animations, hanimations, h⟩ := bind_eq_ok.mp h
  obtain ⟨namespaces, hnamespaces, h⟩ := bind_eq_ok.mp h
  obtain rfl := pure_eq_ok.mp h
  obtain ⟨definitions, hdefinitions, hanimations⟩ := bind_eq_ok.mp hanimations
  obtain ⟨styles, hstyles, hnamespaces⟩ := bind_eq_ok.mp hnamespaces
  obtain ⟨leaves, hleaves, hcompile, htold⟩ := exists_of_compileNamespaceEntries hnamespaces
  have htokens := tokens_bundle animations htold
  have hnames : ∀ rules : List Rule,
      (rules.map Rule.entry).map Prod.fst = rules.map Rule.identifier := by
    intro rules
    rw [List.map_map]
    rfl
  have hsheet : (bundle animations namespaces).sheet.identifiers =
      (bundle animations namespaces).tokens.eraseDups := by
    rw [sheet_bundle, Sheet.identifiers_addAll, hnames, htokens]
  refine ⟨definitions, styles, leaves, animations.map Prod.snd,
    namespaces.flatMap CompiledNamespace.rules, hdefinitions, hstyles, hleaves,
    forall₂_of_compileAnimationEntries hanimations, hcompile, htokens, hsheet, ?_, ?_, ?_⟩
  · rw [Bundle.ruleCount, sheet_bundle, Sheet.size_addAll, hnames, htokens]
  · intro name
    rw [hsheet, List.mem_eraseDups]
  · intro e he
    rw [sheet_bundle] at he
    obtain ⟨rule, hrule, rfl⟩ := List.mem_map.mp (Sheet.mem_of_mem_addAll he)
    exact ⟨hrule, rfl⟩

/-- An animation, a leaf that is met twice, a leaf under two conditions and two absent ones. -/
theorem tokens_of_leaf_met_twice :
    ∃ b : Bundle,
      compileDocument { resolution := .physical }
          [(.text "keyframes", .map
              [(.text "fade", .map [(.text "from", .map [(.text "opacity", .int 0)])])]),
            (.text "styles", .map
              [(.text "box", .map
                  [(.text "color", .map
                      [(.text "default", .text "red"),
                        (.text ":hover", .map
                          [(.text "default", .null), (.text "@media print", .text "blue")])]),
                    (.text "margin", .null)]),
                (.text "link", .map [(.text "color", .text "red")])])] = .ok b ∧
        b.tokens = ["xw2c1lr-B", "x172e1ox-A", "x1i8klue-A", "x172e1ox-A"] ∧
        b.sheet.identifiers = ["xw2c1lr-B", "x172e1ox-A", "x1i8klue-A"] ∧
        b.ruleCount = 3 := by
  have hrun : (do
      let b ← compileDocument { resolution := .physical }
        [(.text "keyframes", .map
            [(.text "fade", .map [(.text "from", .map [(.text "opacity", .int 0)])])]),
          (.text "styles", .map
            [(.text "box", .map
                [(.text "color", .map
                    [(.text "default", .text "red"),
                      (.text ":hover", .map
                        [(.text "default", .null), (.text "@media print", .text "blue")])]),
                  (.text "margin", .null)]),
              (.text "link", .map [(.text "color", .text "red")])])]
      pure b.tokens : Outcome (List String)) =
      .ok ["xw2c1lr-B", "x172e1ox-A", "x1i8klue-A", "x172e1ox-A"] :=
    eq_ok_of_toOption (by decide +kernel)
  obtain ⟨b, hb, htokens⟩ := bind_eq_ok.mp hrun
  have htokens := pure_eq_ok.mp htokens
  obtain ⟨_, _, _, _, _, _, _, _, _, _, _, hnames, hcount, _⟩ := tokens_of_compileDocument hb
  refine ⟨b, hb, htokens, ?_, ?_⟩
  · rw [hnames, htokens]
    decide
  · rw [hcount, htokens]
    decide

end AtomicStyle
