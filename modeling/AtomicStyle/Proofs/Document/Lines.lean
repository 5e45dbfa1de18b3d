import AtomicStyle.Proofs.Document.Manifest
import AtomicStyle.Proofs.Rule.Line

/-!
# The lines of the sheets of a document

The sheets of a document hold one rule a line, and the two are aligned: each line of the one is the
same rule as the line of the other (`lines_of_compileDocument`).

**Styles.**  Frames and namespaces are the styles of a document, and their keys name properties.
Those names are the only texts of a document that reach a sheet without being tidied or checked.

**Sheets.**  A sheet joins the texts of its rules with line breaks, and these are its only ones if
each rule is on one line.
-/

namespace AtomicStyle

open Text

variable {settings : Settings}

/-! ## The names of properties -/

/-- The entries of a mapping, and none of any other value. -/
def Value.entries : Value → List (Key × Value)
  | .map entries => entries
  | _ => []

/-- The styles of a document: the frames of its keyframes and its namespaces. -/
def documentStyles (document : List (Key × Value)) : List Value :=
  ((sectionValue document "keyframes").entries.flatMap fun definition =>
      definition.2.entries.map Prod.snd) ++
    (sectionValue document "styles").entries.map Prod.snd

/-- The names that the styles of a document give properties. -/
def propertyNames (document : List (Key × Value)) : List String :=
  (documentStyles document).flatMap fun style => style.entries.filterMap fun entry =>
    match entry.1 with
    | .text name => some name
    | .number _ => none

/-- In a document whose names are lines, the names in each style are. -/
lemma namesOnLine_of_mem {document : List (Key × Value)}
    (h : ∀ name ∈ propertyNames document, '\n' ∉ name.toList) {style : Value}
    (hstyle : style ∈ documentStyles document) : NamesOnLine style := by
  intro entries name value hentries hmem
  obtain rfl := eq_map_of_entriesOf hentries
  refine h name (List.mem_flatMap.mpr ⟨_, hstyle, ?_⟩)
  exact List.mem_filterMap.mpr ⟨_, hmem, rfl⟩

/-! ## The rules of a document -/

/-- The rule of an animation is emitted on one line. -/
lemma onLine_of_definition {document definitions : List (Key × Value)}
    (h : ∀ name ∈ propertyNames document, '\n' ∉ name.toList)
    (hdefinitions : sectionValue document "keyframes" = .map definitions) {entry : Key × Value}
    (hentry : entry ∈ definitions) {r : Rule} (hr : compileKeyframes settings entry.2 = .ok r) :
    r.OnLine := by
  have hframes : ∀ frame ∈ entry.2.entries, NamesOnLine frame.2 := by
    intro frame hframe
    refine namesOnLine_of_mem h (List.mem_append_left _ (List.mem_flatMap.mpr ⟨entry, ?_, ?_⟩))
    · rw [hdefinitions]
      exact hentry
    · exact List.mem_map_of_mem hframe
  cases hdefinition : entry.2 with
  | map frames =>
      rw [hdefinition] at hr hframes
      exact onLine_of_compileKeyframes hframes hr
  | _ =>
      rw [hdefinition] at hr
      exact absurd hr (reject_ne_ok _ _)

/-- The property of a leaf is a key of its namespace. -/
lemma mem_of_mem_namespaceLeaves {entries : List (Key × Value)} {leaves : List Leaf}
    (h : namespaceLeaves entries = .ok leaves) {l : Leaf} (hl : l ∈ leaves) :
    ∃ value, (l.property, value) ∈ entries := by
  have hproperty : ∀ {property place}, leaf? property place = some l → l.property = property := by
    intro property place hplace
    unfold leaf? at hplace
    split at hplace
    · cases hplace
    · rw [← Option.some.inj hplace]
  induction entries generalizing leaves with
  | nil =>
      obtain rfl := Except.ok.inj h
      exact absurd hl List.not_mem_nil
  | cons entry rest ih =>
      obtain ⟨property, value⟩ := entry
      obtain ⟨met, _, h⟩ := bind_eq_ok.mp h
      obtain ⟨others, hothers, h⟩ := bind_eq_ok.mp h
      obtain rfl := pure_eq_ok.mp h
      rcases List.mem_append.mp hl with hl | hl
      · obtain ⟨place, _, hplace⟩ := List.mem_filterMap.mp hl
        rw [hproperty hplace]
        exact ⟨value, List.mem_cons_self⟩
      · obtain ⟨other, hmem⟩ := ih hothers hl
        exact ⟨other, List.mem_cons_of_mem _ hmem⟩

/-- Each leaf is of a property of a namespace of the section. -/
lemma exists_of_mem_sectionLeaves {styles : List (Key × Value)} {leaves : List Leaf}
    (h : sectionLeaves styles = .ok leaves) {l : Leaf} (hl : l ∈ leaves) :
    ∃ entry ∈ styles, ∃ entries, entriesOf entry.2 = .ok entries ∧
      ∃ value, (l.property, value) ∈ entries := by
  induction styles generalizing leaves with
  | nil =>
      obtain rfl := Except.ok.inj h
      exact absurd hl List.not_mem_nil
  | cons entry rest ih =>
      obtain ⟨entries, hentries, h⟩ := bind_eq_ok.mp h
      obtain ⟨first, hfirst, h⟩ := bind_eq_ok.mp h
      obtain ⟨others, hothers, h⟩ := bind_eq_ok.mp h
      obtain rfl := pure_eq_ok.mp h
      rcases List.mem_append.mp hl with hl | hl
      · exact ⟨entry, List.mem_cons_self, entries, hentries, mem_of_mem_namespaceLeaves hfirst hl⟩
      · obtain ⟨other, hmem, hother⟩ := ih hothers hl
        exact ⟨other, List.mem_cons_of_mem _ hmem, hother⟩

/-- The rule of a leaf is emitted on one line. -/
lemma onLine_of_leaf {document styles : List (Key × Value)}
    (h : ∀ name ∈ propertyNames document, '\n' ∉ name.toList)
    (hstyles : sectionValue document "styles" = .map styles) {leaves : List Leaf}
    (hleaves : sectionLeaves styles = .ok leaves) {l : Leaf} (hl : l ∈ leaves) {r : Rule}
    (hr : l.compile settings = .ok r) : r.OnLine := by
  obtain ⟨entry, hentry, entries, hentries, value, hvalue⟩ := exists_of_mem_sectionLeaves hleaves hl
  have hstyle : NamesOnLine entry.2 := by
    refine namesOnLine_of_mem h (List.mem_append_right _ ?_)
    rw [hstyles]
    exact List.mem_map_of_mem hentry
  refine onLine_of_compileBlock (fun single name other hsingle hname => ?_) hr
  obtain rfl := Except.ok.inj hsingle
  obtain ⟨hkey, _⟩ := Prod.mk.inj (List.mem_singleton.mp hname)
  exact hstyle entries name value hentries (hkey ▸ hvalue)

/-- **Each rule of a document whose property names are lines is emitted on one line.** -/
theorem onLine_of_mem_sheet {document : List (Key × Value)} {b : Bundle}
    (hnames : ∀ name ∈ propertyNames document, '\n' ∉ name.toList)
    (h : compileDocument settings document = .ok b) : ∀ e ∈ b.sheet.entries, e.2.OnLine := by
  obtain ⟨definitions, styles, leaves, hdefinitions, hstyles, hleaves, hmem⟩ :=
    exists_of_mem_sheet h
  intro e he
  rcases hmem e he with ⟨entry, hentry, hr⟩ | ⟨l, hl, hr⟩
  · exact onLine_of_definition hnames (eq_map_of_entriesOf hdefinitions) hentry hr
  · exact onLine_of_leaf hnames (eq_map_of_entriesOf hstyles) hleaves hl hr

/-! ## The sheets of a document -/

/-- A sheet whose rules are on one line each is read back line by line. -/
lemma Sheet.linesOf_of_onLine {s : Sheet} (hsize : 0 < s.size)
    (h : ∀ e ∈ s.entries, e.2.OnLine) :
    linesOf s.ltrText = s.sorted.map Rule.ltr ∧ linesOf s.rtlText = s.sorted.map Rule.rtlText := by
  have hne : s.sorted ≠ [] := by
    rw [← List.length_pos_iff, s.sorted_perm.length_eq, List.length_map]
    exact hsize
  have hsorted : ∀ r ∈ s.sorted, r.OnLine := by
    intro r hr
    obtain ⟨e, he, rfl⟩ := List.mem_map.mp (s.sorted_perm.mem_iff.mp hr)
    exact h e he
  constructor
  · refine linesOf_intercalate (fun hnil => hne (List.map_eq_nil_iff.mp hnil)) ?_
    exact List.forall_mem_map.mpr fun r hr => (hsorted r hr).ltr
  · refine linesOf_intercalate (fun hnil => hne (List.map_eq_nil_iff.mp hnil)) ?_
    exact List.forall_mem_map.mpr fun r hr => (hsorted r hr).rtl

/-- **The sheets of a document hold one rule a line, aligned.**  If a document with rules gives no
property a name with a line break, each sheet has as many lines as there are rules.  The lines of
the sheet for left-to-right documents are the texts of the rules in sorted order; those of the other
sheet are the right-to-left texts of the same rules in the same order, or else their left-to-right
texts.  No value, selector or condition is asked for anything. -/
theorem lines_of_compileDocument {document : List (Key × Value)} {b : Bundle}
    (hnames : ∀ name ∈ propertyNames document, '\n' ∉ name.toList)
    (h : compileDocument settings document = .ok b) (hcount : 0 < b.ruleCount) :
    (linesOf b.sheet.ltrText).length = b.ruleCount ∧
      (linesOf b.sheet.rtlText).length = b.ruleCount ∧
      linesOf b.sheet.ltrText = b.sheet.sorted.map Rule.ltr ∧
      linesOf b.sheet.rtlText = b.sheet.sorted.map fun r => r.rtl.getD r.ltr := by
  obtain ⟨hltr, hrtl⟩ := Sheet.linesOf_of_onLine hcount (onLine_of_mem_sheet hnames h)
  have hlength : b.sheet.sorted.length = b.ruleCount := by
    rw [b.sheet.sorted_perm.length_eq, List.length_map]
    rfl
  refine ⟨?_, ?_, hltr, hrtl⟩
  · rw [hltr, List.length_map, hlength]
  · rw [hrtl, List.length_map, hlength]

/-- A document with line breaks in a selector, in values of every kind and in conditions. -/
def brokenTexts : List (Key × Value) := [
  (.text "keyframes", .map [
    (.text "fade", .map [
      (.text " from ,\n 50%\n", .map [(.text "marginStart", .text "1px\n!important")])])]),
  (.text "styles", .map [
    (.text "box", .map [
      (.text "content", .text "a\n\"b\""),
      (.text "transitionDuration", .text "1s,\n200ms"),
      (.text "boxShadow", .text "1px 2px\n,0 3px"),
      (.text "color", .map [
        (.text "default", .text "\nred"),
        (.text ":hover\n", .map [(.text "@media\n print", .text "blue")])])])])]

/-- Its six rules are on six lines of each sheet. -/
theorem lines_of_brokenTexts :
    ∃ b : Bundle, compileDocument { resolution := .physical } brokenTexts = .ok b ∧
      b.ruleCount = 6 ∧ (linesOf b.sheet.ltrText).length = 6 ∧
      (linesOf b.sheet.rtlText).length = 6 ∧
      linesOf b.sheet.ltrText = b.sheet.sorted.map Rule.ltr ∧
      linesOf b.sheet.rtlText = b.sheet.sorted.map fun r => r.rtl.getD r.ltr := by
  have hrun : (do
      let b ← compileDocument { resolution := .physical } brokenTexts
      pure b.ruleCount : Outcome Nat) = .ok 6 :=
    eq_ok_of_toOption (by decide +kernel)
  obtain ⟨b, hb, hcount⟩ := bind_eq_ok.mp hrun
  have hcount := pure_eq_ok.mp hcount
  have hnames : ∀ name ∈ propertyNames brokenTexts, '\n' ∉ name.toList := by decide +kernel
  have hlines := lines_of_compileDocument hnames hb (by omega)
  rw [hcount] at hlines
  exact ⟨b, hb, hcount, hlines⟩

end AtomicStyle
