import AtomicStyle.Document
import AtomicStyle.Proofs.Fault.Style

/-!
# The faults of a document

A document whose keys are texts is compiled, or is rejected, or ends in a fault of a known origin
(`outcome_compileDocument`).  There are two origins (`DocumentFault`).

**Sections.**  A section that is neither absent nor a mapping is taken for a mapping.

**Entries.**  A defective entry of a frame, or of a leaf.  `FrameStyle` and `LeafStyle` tell the flat
styles that a keyframes definition and a namespace consist of; the leaves are met on a walk, which
no condition stops with a fault when the keys are texts (`stopped_walk`).
-/

namespace AtomicStyle

open Css Property

variable {settings : Settings} {P : Fault → Prop}

/-! ## Text keys -/

mutual

/-- The keys of a value are texts, as deep as it can be walked through. -/
def Value.HasTextKeys : Value → Prop
  | .map entries => HaveTextKeys entries
  | _ => True

/-- The keys of entries, and of the values under them, are texts. -/
def HaveTextKeys : List (Key × Value) → Prop
  | [] => True
  | (key, value) :: rest => (∃ s, key = .text s) ∧ value.HasTextKeys ∧ HaveTextKeys rest

end

lemma haveTextKeys_iff {entries : List (Key × Value)} :
    HaveTextKeys entries ↔ TextKeys entries ∧ ∀ e ∈ entries, e.2.HasTextKeys := by
  induction entries with
  | nil => simp [HaveTextKeys, TextKeys]
  | cons entry rest ih =>
      obtain ⟨key, value⟩ := entry
      rw [HaveTextKeys, ih, TextKeys, TextKeys, List.forall_mem_cons, List.forall_mem_cons]
      exact ⟨fun ⟨hk, hv, hks, hvs⟩ => ⟨⟨hk, hks⟩, hv, hvs⟩,
        fun ⟨⟨hk, hks⟩, hv, hvs⟩ => ⟨hk, hv, hks, hvs⟩⟩

/-- A section has text keys if the document has. -/
lemma hasTextKeys_sectionValue {document : List (Key × Value)} (h : HaveTextKeys document)
    (name : String) : (sectionValue document name).HasTextKeys := by
  unfold sectionValue
  split
  case h_1 v hv =>
      split_ifs
      · trivial
      · exact (haveTextKeys_iff.mp h).2 _ (mem_of_lookup_eq_some hv)
  case h_2 => trivial

/-! ## Walks -/

lemma stopped_append (a b : Walk) : (a.append b).stopped = a.stopped.or b.stopped := by
  cases h : a.stopped <;> simp [Walk.append, h]

lemma faultsIn_enterKey {property : Key} {whole : Value} {context : Context} (s : String) :
    FaultsIn P (enterKey property whole context (.text s)) := by
  unfold enterKey
  dsimp only
  split
  · exact .of_ok _
  · exact .of_reject _

/-- **A walk is stopped by a rejection, if at all.** -/
theorem stopped_walk {property : Key} {context : Context} {f : Fault} {value : Value}
    (h : value.HasTextKeys) : (walk property context value).stopped ≠ some (.fault f) := by
  induction value using Value.tree_induction generalizing context with
  | leaf value hleaf =>
      simp [walk_of_leaf hleaf]
  | map entries ih =>
      rw [Value.HasTextKeys] at h
      rw [walk]
      generalize Value.map entries = whole
      induction entries with
      | nil => simp [walkEntries]
      | cons entry rest ihrest =>
          obtain ⟨key, value⟩ := entry
          obtain ⟨⟨s, rfl⟩, hvalue, hrest⟩ := h
          obtain ⟨ihvalue, ih⟩ := List.forall_mem_cons.mp ih
          rw [walkEntries]
          cases hkey : enterKey property whole context (.text s) with
          | error failure =>
              rintro ⟨⟩
              exact faultsIn_enterKey (P := fun _ => False) s f hkey
          | ok inner =>
              rw [stopped_append, Ne, Option.or_eq_some_iff]
              rintro (hstopped | ⟨-, hstopped⟩)
              · exact ihvalue hvalue hstopped
              · exact ihrest ih hrest hstopped

lemma faultsIn_finish {α : Type} {w : Walk} (h : ∀ f, w.stopped ≠ some (.fault f)) (a : α) :
    FaultsIn P (w.finish a) := by
  unfold Walk.finish
  split
  case h_1 failure hstopped =>
      cases failure with
      | rejected r => exact .of_reject r
      | fault f => exact absurd hstopped (h f)
  case h_2 => exact .of_ok a

/-! ## Namespaces -/

/-- The flat styles of a namespace: one for each leaf of each property. -/
inductive LeafStyle : Value → List (Key × Value) → Prop
  | leaf {properties : List (Key × Value)} {property : Key} {value leaf : Value}
      {context : Context} (hproperty : (property, value) ∈ properties)
      (hleaf : (context, leaf) ∈ (walk property {} value).leaves) :
      LeafStyle (.map properties) [(property, leaf)]

lemma faultsIn_compileLeaves {property : Key} {leaves : List (Context × Value)}
    (h : ∀ leaf ∈ leaves, FaultsIn P (compileBlock settings leaf.1 (.map [(property, leaf.2)]))) :
    FaultsIn P (compileLeavesIn settings property leaves) := by
  induction leaves with
  | nil => exact .of_ok []
  | cons leaf rest ih =>
      obtain ⟨hleaf, hrest⟩ := List.forall_mem_cons.mp h
      obtain ⟨context, value⟩ := leaf
      cases value with
      | null => exact ih hrest
      | _ => exact hleaf.bind fun rule _ => (ih hrest).bind_pure (rule :: ·)

lemma faultsIn_compileProperty {s : String} {value : Value} (hkeys : value.HasTextKeys)
    (h : ∀ context leaf, (context, leaf) ∈ (walk (.text s) {} value).leaves →
      ∀ f, StyleFault settings [(.text s, leaf)] f → P f) :
    FaultsIn P (compilePropertyIn settings (.text s) value) := by
  refine (faultsIn_compileLeaves fun leaf hleaf => ?_).bind fun rules _ =>
    faultsIn_finish (fun f => stopped_walk hkeys) rules
  have htext : TextKeys [(Key.text s, leaf.2)] := List.forall_mem_singleton.mpr ⟨s, rfl⟩
  exact (faultsIn_compileBlock leaf.1 htext).mono (h leaf.1 leaf.2 hleaf)

lemma faultsIn_compileProperties {entries : List (Key × Value)}
    (h : ∀ e ∈ entries, FaultsIn P (compilePropertyIn settings e.1 e.2)) :
    FaultsIn P (compilePropertiesIn settings entries) := by
  induction entries with
  | nil => exact .of_ok _
  | cons entry rest ih =>
      obtain ⟨hentry, hrest⟩ := List.forall_mem_cons.mp h
      exact hentry.bind fun rules _ => (ih hrest).bind_pure _

lemma faultsIn_compileNamespace {name : Key} {style : Value} (hkeys : style.HasTextKeys)
    (h : ∀ entries, LeafStyle style entries → ∀ f, StyleFault settings entries f → P f) :
    FaultsIn P (compileNamespaceIn settings name style) := by
  cases style with
  | map properties =>
      obtain ⟨htext, hvalues⟩ := haveTextKeys_iff.mp hkeys
      refine (faultsIn_compileProperties fun e he => ?_).bind_pure _
      obtain ⟨property, value⟩ := e
      obtain ⟨s, rfl⟩ := htext _ he
      exact faultsIn_compileProperty (hvalues _ he) fun context leaf hleaf =>
        h _ (.leaf he hleaf)
  | _ => exact .of_reject _

lemma faultsIn_compileNamespaceEntries {entries : List (Key × Value)}
    (h : ∀ e ∈ entries, FaultsIn P (compileNamespaceIn settings e.1 e.2)) :
    FaultsIn P (compileNamespaceEntriesIn settings entries) := by
  induction entries with
  | nil => exact .of_ok []
  | cons entry rest ih =>
      obtain ⟨hentry, hrest⟩ := List.forall_mem_cons.mp h
      exact hentry.bind fun n _ => (ih hrest).bind_pure (n :: ·)

/-! ## Keyframes -/

/-- The flat styles of a keyframes definition: its frames. -/
inductive FrameStyle : Value → List (Key × Value) → Prop
  | frame {frames entries : List (Key × Value)} {selector : Key}
      (hframe : (selector, .map entries) ∈ frames) : FrameStyle (.map frames) entries

/-- A fault is not located. -/
lemma faultsIn_atSelector {α : Type} {selector : String} {x : Outcome α} (h : FaultsIn P x) :
    FaultsIn P (atSelector selector x) := by
  cases x with
  | ok a => exact .of_ok a
  | error failure =>
      cases failure with
      | rejected r => exact .of_reject _
      | fault f => exact h

lemma faultsIn_newSelector {seen : List String} {key : Key} {frame : Value} :
    FaultsIn P (newSelector seen key frame) := by
  have hselector : FaultsIn P (frameSelector key.toValue frame) := by
    cases key with
    | text s =>
        simp only [Key.toValue, frameSelector, textSelector]
        split_ifs
        · exact .of_ok _
        · exact .of_reject _
    | number n => exact .of_reject _
  exact hselector.bind fun selector _ => .ite_reject (.of_ok selector)

lemma faultsIn_compileFrame {seen : List String} {key : Key} {frame : Value}
    (hkeys : frame.HasTextKeys)
    (h : ∀ entries, frame = .map entries → ∀ f, StyleFault settings entries f → P f) :
    FaultsIn P (compileFrameIn settings seen key frame) := by
  refine faultsIn_newSelector.bind fun selector _ => ?_
  cases frame with
  | map entries =>
      have hstyle := h entries rfl
      have htext := (haveTextKeys_iff.mp hkeys).1
      refine (faultsIn_atSelector ?_).bind fun s hs => FaultsIn.bind_pure ?_ _
      · exact (faultsIn_checkScalars entries).bind fun _ _ =>
          (faultsIn_resolveEntries htext).mono hstyle
      · obtain ⟨_, _, hs⟩ := bind_eq_ok.mp (atSelector_eq_ok.mp hs)
        exact (faultsIn_withCounterpart_of_resolveEntries hs).mono hstyle
  | _ => exact FaultsIn.bind (.of_reject _) fun _ h => nomatch h

lemma faultsIn_compileFrames {seen : List String} {entries : List (Key × Value)}
    (h : ∀ e ∈ entries, ∀ seen, FaultsIn P (compileFrameIn settings seen e.1 e.2)) :
    FaultsIn P (compileFramesIn settings seen entries) := by
  induction entries generalizing seen with
  | nil => exact .of_ok []
  | cons entry rest ih =>
      obtain ⟨hentry, hrest⟩ := List.forall_mem_cons.mp h
      exact (hentry seen).bind fun frame _ => (ih hrest).bind_pure (frame :: ·)

lemma faultsIn_compileKeyframes {definition : Value} (hkeys : definition.HasTextKeys)
    (h : ∀ entries, FrameStyle definition entries → ∀ f, StyleFault settings entries f → P f) :
    FaultsIn P (compileKeyframes settings definition) := by
  cases definition with
  | map frames =>
      cases frames with
      | nil => exact .of_reject _
      | cons frame rest =>
          refine FaultsIn.bind (.of_ok _) fun frames hframes => FaultsIn.bind_pure ?_ _
          obtain rfl := Except.ok.inj hframes
          refine faultsIn_compileFrames fun e he seen => ?_
          refine faultsIn_compileFrame ((haveTextKeys_iff.mp hkeys).2 e he) ?_
          obtain ⟨selector, value⟩ := e
          rintro entries rfl
          exact h entries (.frame he)
  | _ => exact FaultsIn.bind (.of_reject _) fun _ h => nomatch h

lemma faultsIn_compileAnimationEntries {sheet : Sheet} {entries : List (Key × Value)}
    (h : ∀ e ∈ entries, FaultsIn P (compileKeyframes settings e.2)) :
    FaultsIn P (compileAnimationEntriesIn settings sheet entries) := by
  induction entries generalizing sheet with
  | nil => exact .of_ok []
  | cons entry rest ih =>
      obtain ⟨hentry, hrest⟩ := List.forall_mem_cons.mp h
      exact hentry.bind fun rule _ => (ih hrest).bind_pure _

/-! ## Documents -/

/-- The faults of a document: a section that is no mapping, or a defective entry of a frame or of a
leaf. -/
inductive DocumentFault (settings : Settings) (document : List (Key × Value)) : Fault → Prop
  | shape {name : String} (hname : name ∈ sectionNames)
      (hshape : (sectionValue document name).kind ≠ .map) :
      DocumentFault settings document (.notMapping (sectionValue document name).kind)
  | frame {f : Fault} {definitions entries : List (Key × Value)} {name : Key} {definition : Value}
      (hsection : sectionValue document "keyframes" = .map definitions)
      (hdefinition : (name, definition) ∈ definitions) (hstyle : FrameStyle definition entries)
      (h : StyleFault settings entries f) : DocumentFault settings document f
  | leaf {f : Fault} {namespaces entries : List (Key × Value)} {name : Key} {style : Value}
      (hsection : sectionValue document "styles" = .map namespaces)
      (hnamespace : (name, style) ∈ namespaces) (hstyle : LeafStyle style entries)
      (h : StyleFault settings entries f) : DocumentFault settings document f

/-- The entries of a section are asked for without a look at its shape. -/
lemma faultsIn_section {document : List (Key × Value)} {name : String}
    (hname : name ∈ sectionNames) :
    FaultsIn (DocumentFault settings document) (entriesOf (sectionValue document name)) := by
  have hshape : (sectionValue document name).kind ≠ .map →
      DocumentFault settings document (.notMapping (sectionValue document name).kind) :=
    .shape hname
  cases hvalue : sectionValue document name with
  | map entries => exact .of_ok entries
  | _ =>
      rw [hvalue] at hshape
      exact .of_fault (hshape nofun)

/-- Texts have an order, so what is told of unknown sections is no fault. -/
lemma faultsIn_checkSections {document : List (Key × Value)} (h : TextKeys document) :
    FaultsIn P (checkSections document) := by
  have hunknown : FaultsIn P (unknownKeys document) := by
    unfold unknownKeys
    dsimp only
    split
    case h_1 number rest _ hnumbers =>
        -- a number among the unknown keys would be a key of the document
        have hmem : number ∈ number :: rest := List.mem_cons_self
        rw [← hnumbers] at hmem
        obtain ⟨key, hkey, hnumber⟩ := List.mem_filterMap.mp hmem
        obtain ⟨e, he, rfl⟩ := List.mem_map.mp (List.mem_filter.mp hkey).1
        obtain ⟨s, hs⟩ := h e he
        rw [hs] at hnumber
        cases hnumber
    case h_2 => exact .of_ok _
    case h_3 => exact .of_ok _
  refine hunknown.bind fun keys _ => ?_
  cases keys with
  | nil => exact .of_ok ()
  | cons key keys => exact .of_reject _

/-- **A document is compiled, or is rejected, or ends in a fault of a known origin.** -/
theorem outcome_compileDocument {document : List (Key × Value)} (h : HaveTextKeys document) :
    (∃ b, compileDocument settings document = .ok b) ∨
      (∃ r, compileDocument settings document = reject r) ∨
        ∃ f, compileDocument settings document = fault f ∧ DocumentFault settings document f := by
  have hkeyframes := hasTextKeys_sectionValue h "keyframes"
  have hstyles := hasTextKeys_sectionValue h "styles"
  have hanimations : FaultsIn (DocumentFault settings document)
      (compileAnimationsIn settings (sectionValue document "keyframes")) := by
    refine (faultsIn_section (by decide)).bind fun definitions hdefinitions => ?_
    have hsection := eq_map_of_entriesOf hdefinitions
    rw [hsection] at hkeyframes
    refine faultsIn_compileAnimationEntries fun e he => ?_
    exact faultsIn_compileKeyframes ((haveTextKeys_iff.mp hkeyframes).2 e he) fun entries hstyle f =>
      .frame hsection he hstyle
  have hnamespaces : FaultsIn (DocumentFault settings document)
      (compileNamespaces settings (sectionValue document "styles")) := by
    refine (faultsIn_section (by decide)).bind fun namespaces hdefinitions => ?_
    have hsection := eq_map_of_entriesOf hdefinitions
    rw [hsection] at hstyles
    refine faultsIn_compileNamespaceEntries fun e he => ?_
    exact faultsIn_compileNamespace ((haveTextKeys_iff.mp hstyles).2 e he) fun entries hstyle f =>
      .leaf hsection he hstyle
  exact ((faultsIn_checkSections (haveTextKeys_iff.mp h).1).bind fun _ _ =>
    hanimations.bind fun _ _ => hnamespaces.bind_pure _).cases

/-- A document with a `content` value that is nothing but an importance mark. -/
def bareMarkDocument : List (Key × Value) :=
  [(.text "styles", .map [(.text "a", .map [(.text "content", .text "!important")])])]

/-- The document has text keys, and it is neither compiled nor rejected. -/
theorem outcome_of_bareMarkDocument :
    HaveTextKeys bareMarkDocument ∧
      (∀ b, compileDocument {} bareMarkDocument ≠ .ok b) ∧
        (∀ r, compileDocument {} bareMarkDocument ≠ reject r) ∧
          ∃ f, compileDocument {} bareMarkDocument = fault f ∧
            DocumentFault {} bareMarkDocument f := by
  have hkeys : HaveTextKeys bareMarkDocument := by
    simp [bareMarkDocument, HaveTextKeys, Value.HasTextKeys]
  have hrun : compileDocument {} bareMarkDocument = fault .noFirstCharacter :=
    eq_fault_of_fault? (by decide +kernel)
  have hok : ∀ b, compileDocument {} bareMarkDocument ≠ .ok b := by
    intro b hb
    exact fault_ne_ok _ _ (hrun.symm.trans hb)
  have hreject : ∀ r, compileDocument {} bareMarkDocument ≠ reject r := by
    intro r hr
    cases hrun.symm.trans hr
  refine ⟨hkeys, hok, hreject, ?_⟩
  rcases outcome_compileDocument hkeys with ⟨b, hb⟩ | ⟨r, hr⟩ | horigin
  · exact absurd hb (hok b)
  · exact absurd hr (hreject r)
  · exact horigin

/-- The other faults: a section of the wrong shape, an integer that is too large, and a side word
with a dotless letter. -/
example :
    [[(.text "styles", .list [.int 1])],
      [(.text "styles", .map [(.text "a", .map [(.text "width", .int (10 ^ 400))])])],
      [(.text "styles", .map [(.text "a", .map [(.text "object-position",
        .text "rıght")])])]].map (fun document => fault? (compileDocument {} document)) =
      [some (.notMapping .list), some .integerTooLarge, some (.unknownSide "rıght")] := by
  decide +kernel

end AtomicStyle
