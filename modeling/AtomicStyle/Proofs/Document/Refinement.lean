import AtomicStyle.Document
import AtomicStyle.Proofs.Matching
import AtomicStyle.Proofs.Outcome
import AtomicStyle.Proofs.Sheet

/-!
# Documents under two settings

A document is compiled rule by rule.  So what two settings make of a document follows from what they
make of a class rule and of keyframes, whatever relation there is between the rules.

**Names.**  All that a document does with a rule besides collecting it is to look at its identifier:
for the manifest, and for the sheet, which holds one rule of each identifier.  So the only thing
asked for is that related rules have one identifier (`CompilesUpTo`).

**Documents.**  Then the manifests are the same, and the sheets hold related rules under the same
identifiers (`CompilesUpTo.refinesUpTo_compileDocument`).
-/

namespace AtomicStyle

/-- Pairs of one key whose values are related. -/
def Keyed {κ α β : Type} (R : α → β → Prop) (x : κ × α) (y : κ × β) : Prop :=
  x.1 = y.1 ∧ R x.2 y.2

/-- What the first settings compile, the second compile to a related rule of the same identifier. -/
structure CompilesUpTo (R : Rule → Rule → Prop) (settings settings' : Settings) : Prop where
  identifier : ∀ r r', R r r' → r.identifier = r'.identifier
  block : ∀ context style,
    RefinesUpTo R (compileBlock settings context style) (compileBlock settings' context style)
  keyframes : ∀ definition,
    RefinesUpTo R (compileKeyframes settings definition) (compileKeyframes settings' definition)

/-- Compiled namespaces of one name and one class map, whose rules are related one by one. -/
structure CompiledNamespace.Related (R : Rule → Rule → Prop) (n n' : CompiledNamespace) : Prop where
  name : n.name = n'.name
  classes : n.classes = n'.classes
  rules : List.Forall₂ R n.rules n'.rules

/-- Compiled documents of one manifest, whose sheets hold related rules one by one. -/
structure Bundle.Related (R : Rule → Rule → Prop) (b b' : Bundle) : Prop where
  keyframes : b.keyframes = b'.keyframes
  styles : b.styles = b'.styles
  entries : List.Forall₂ (Keyed R) b.sheet.entries b'.sheet.entries

/-- Where related rules are the same, so are related documents. -/
lemma Bundle.Related.eq {b b' : Bundle} (h : b.Related Eq b') : b = b' := by
  have hentries : b.sheet.entries = b'.sheet.entries := by
    rw [← List.forall₂_eq_eq_eq]
    exact h.entries.imp fun _ _ hkeyed => Prod.ext hkeyed.1 hkeyed.2
  obtain ⟨⟨entries⟩, keyframes, styles⟩ := b
  obtain ⟨⟨entries'⟩, keyframes', styles'⟩ := b'
  obtain rfl : keyframes = keyframes' := h.keyframes
  obtain rfl : styles = styles' := h.styles
  obtain rfl : entries = entries' := hentries
  rfl

variable {R : Rule → Rule → Prop}

/-! ## Sheets -/

/-- A rule comes in on both sides or on neither. -/
lemma Sheet.forall₂_add {s s' : Sheet} (h : List.Forall₂ (Keyed R) s.entries s'.entries)
    {e e' : String × Rule} (he : Keyed R e e') :
    List.Forall₂ (Keyed R) (s.add e.1 e.2).entries (s'.add e'.1 e'.2).entries := by
  have hidentifiers : s.identifiers = s'.identifiers :=
    map_eq_map_iff_forall₂.mpr (h.imp fun _ _ hkeyed => hkeyed.1)
  have hholds : s.holds e.1 = s'.holds e'.1 := by rw [holds, holds, hidentifiers, he.1]
  cases hheld : s.holds e.1 with
  | true =>
      rw [add_of_holds hheld, add_of_holds (hholds ▸ hheld)]
      exact h
  | false =>
      rw [entries_add_of_not_holds hheld, entries_add_of_not_holds (hholds ▸ hheld)]
      exact List.rel_append h (.cons he .nil)

/-- Sheets are filled alike. -/
lemma Sheet.forall₂_addAll {s s' : Sheet} (h : List.Forall₂ (Keyed R) s.entries s'.entries)
    {rules rules' : List (String × Rule)} (hrules : List.Forall₂ (Keyed R) rules rules') :
    List.Forall₂ (Keyed R) (s.addAll rules).entries (s'.addAll rules').entries := by
  induction hrules generalizing s s' with
  | nil => exact h
  | cons he _ ih => exact ih (forall₂_add h he)

/-! ## Documents -/

namespace CompilesUpTo

variable {settings settings' : Settings}

lemma map_identifier (h : CompilesUpTo R settings settings') {rules rules' : List Rule}
    (hrules : List.Forall₂ R rules rules') :
    rules.map Rule.identifier = rules'.map Rule.identifier :=
  map_eq_map_iff_forall₂.mpr (hrules.imp h.identifier)

lemma refinesUpTo_compileLeaves (h : CompilesUpTo R settings settings') (property : Key)
    (leaves : List (Context × Value)) :
    RefinesUpTo (List.Forall₂ R) (compileLeavesIn settings property leaves)
      (compileLeavesIn settings' property leaves) := by
  induction leaves with
  | nil => exact .of_ok .nil
  | cons leaf rest ih =>
      obtain ⟨context, value⟩ := leaf
      have hrule : RefinesUpTo (List.Forall₂ R) (do
            let rule ← compileBlock settings context (.map [(property, value)])
            let rules ← compileLeavesIn settings property rest
            pure (rule :: rules))
          (do
            let rule ← compileBlock settings' context (.map [(property, value)])
            let rules ← compileLeavesIn settings' property rest
            pure (rule :: rules)) :=
        (h.block context _).bind fun _ _ hr => ih.bind fun _ _ hrs => .of_ok (.cons hr hrs)
      cases value with
      | null => exact ih
      | _ => exact hrule

lemma refinesUpTo_compileProperty (h : CompilesUpTo R settings settings')
    (property : Key) (value : Value) :
    RefinesUpTo (List.Forall₂ R) (compilePropertyIn settings property value)
      (compilePropertyIn settings' property value) := by
  refine (h.refinesUpTo_compileLeaves property _).bind fun rules rules' hrules => ?_
  unfold Walk.finish
  split
  · exact .of_error _ _
  · exact .of_ok hrules

lemma refinesUpTo_compileProperties (h : CompilesUpTo R settings settings')
    (entries : List (Key × Value)) :
    RefinesUpTo (Keyed (List.Forall₂ R)) (compilePropertiesIn settings entries)
      (compilePropertiesIn settings' entries) := by
  induction entries with
  | nil => exact .of_ok ⟨rfl, .nil⟩
  | cons entry rest ih =>
      refine (h.refinesUpTo_compileProperty entry.1 entry.2).bind fun rules rules' hrules => ?_
      refine ih.bind fun others others' hothers => .of_ok ⟨?_, List.rel_append hrules hothers.2⟩
      rw [h.map_identifier hrules, hothers.1]

lemma refinesUpTo_compileNamespace (h : CompilesUpTo R settings settings')
    (name : Key) (style : Value) :
    RefinesUpTo (CompiledNamespace.Related R) (compileNamespaceIn settings name style)
      (compileNamespaceIn settings' name style) := by
  cases style with
  | map entries =>
      refine (h.refinesUpTo_compileProperties entries).bind fun x y hxy => .of_ok ?_
      exact ⟨rfl, hxy.1, hxy.2⟩
  | _ => exact .of_error _ _

lemma refinesUpTo_compileNamespaceEntries (h : CompilesUpTo R settings settings')
    (entries : List (Key × Value)) :
    RefinesUpTo (List.Forall₂ (CompiledNamespace.Related R))
      (compileNamespaceEntriesIn settings entries)
      (compileNamespaceEntriesIn settings' entries) := by
  induction entries with
  | nil => exact .of_ok .nil
  | cons entry rest ih =>
      refine (h.refinesUpTo_compileNamespace entry.1 entry.2).bind fun _ _ hn => ?_
      exact ih.bind fun _ _ hns => .of_ok (.cons hn hns)

lemma refinesUpTo_compileAnimationEntries (h : CompilesUpTo R settings settings')
    (sheet sheet' : Sheet) (entries : List (Key × Value)) :
    RefinesUpTo (List.Forall₂ (Keyed R)) (compileAnimationEntriesIn settings sheet entries)
      (compileAnimationEntriesIn settings' sheet' entries) := by
  induction entries generalizing sheet sheet' with
  | nil => exact .of_ok .nil
  | cons entry rest ih =>
      refine (h.keyframes entry.2).bind fun _ _ hr => ?_
      exact (ih _ _).bind fun _ _ hrs => .of_ok (.cons ⟨rfl, hr⟩ hrs)

/-- Bundles of related rules are related. -/
lemma related_bundle (h : CompilesUpTo R settings settings')
    {animations animations' : List (Key × Rule)} {namespaces namespaces' : List CompiledNamespace}
    (hanimations : List.Forall₂ (Keyed R) animations animations')
    (hnamespaces : List.Forall₂ (CompiledNamespace.Related R) namespaces namespaces') :
    (bundle animations namespaces).Related R (bundle animations' namespaces') := by
  have hentry : ∀ {r r'}, R r r' → Keyed R r.entry r'.entry := fun hr => ⟨h.identifier _ _ hr, hr⟩
  refine ⟨?_, ?_, Sheet.forall₂_addAll (Sheet.forall₂_addAll .nil ?_) ?_⟩
  · exact map_eq_map_iff_forall₂.mpr <|
      hanimations.imp fun _ _ ha => Prod.ext ha.1 (h.identifier _ _ ha.2)
  · exact map_eq_map_iff_forall₂.mpr (hnamespaces.imp fun _ _ hn => Prod.ext hn.name hn.classes)
  · rw [List.forall₂_map_left_iff, List.forall₂_map_right_iff]
    exact hanimations.imp fun _ _ ha => hentry ha.2
  · refine List.rel_flatMap hnamespaces fun n n' hn => ?_
    rw [List.forall₂_map_left_iff, List.forall₂_map_right_iff]
    exact hn.rules.imp fun _ _ hr => hentry hr

/-- **What two settings make of rules, they make of documents.** -/
theorem refinesUpTo_compileDocument (h : CompilesUpTo R settings settings')
    (document : List (Key × Value)) :
    RefinesUpTo (Bundle.Related R) (compileDocument settings document)
      (compileDocument settings' document) := by
  have hanimations : ∀ definitions, RefinesUpTo (List.Forall₂ (Keyed R))
      (compileAnimationsIn settings definitions) (compileAnimationsIn settings' definitions) :=
    fun _ => .bind_same _ (h.refinesUpTo_compileAnimationEntries _ _)
  have hnamespaces : ∀ styles, RefinesUpTo (List.Forall₂ (CompiledNamespace.Related R))
      (compileNamespaces settings styles) (compileNamespaces settings' styles) :=
    fun _ => .bind_same _ h.refinesUpTo_compileNamespaceEntries
  refine .bind_same _ fun _ => (hanimations _).bind fun _ _ ha => ?_
  exact (hnamespaces _).bind fun _ _ hn => .of_ok (h.related_bundle ha hn)

end CompilesUpTo

end AtomicStyle
