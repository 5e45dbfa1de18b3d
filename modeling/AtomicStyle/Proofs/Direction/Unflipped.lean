import AtomicStyle.Proofs.Document.Manifest
import AtomicStyle.Proofs.Document.Refinement
import AtomicStyle.Proofs.Rule.Variant

/-!
# Compiling without flips

The settings may ask for values that depend on the direction to be flipped in the right-to-left text.
This file says what the switch can be seen in: in that text, and nowhere else.

**Counterparts.**  Without flips every declaration has a counterpart, the declaration turned to the
other direction (`counterpartDeclaration_of_unflipped`), so that no check is left to fail.  Under
logical resolution it is turned to itself, and no rule has a right-to-left text of its own.

**The left-to-right part.**  `Rule.leftToRight` is a rule without its right-to-left text.  It is made
of the resolved declarations, which the switch has no part in, so it is the same with flips and
without (`compilesUpTo_unflipped`).

**Documents.**  A document looks at the identifiers and the priorities of its rules only, and both are
of the left-to-right part.  So the manifest, the number of rules and the left-to-right sheet are the
same too.
-/

namespace AtomicStyle

open Css Property

/-- The settings without flips. -/
def Settings.unflipped (settings : Settings) : Settings :=
  { settings with flipsValues := false }

/-- The rule without its right-to-left text. -/
def Rule.leftToRight (r : Rule) : Rule :=
  { r with rtl := none }

/-- The sheet of the rules without their right-to-left texts. -/
def Sheet.leftToRight (s : Sheet) : Sheet :=
  { entries := s.entries.map fun e => (e.1, e.2.leftToRight) }

/-- The compiled document without right-to-left texts. -/
def Bundle.leftToRight (b : Bundle) : Bundle :=
  { b with sheet := b.sheet.leftToRight }

lemma Rule.leftToRight_eq_self_iff {r : Rule} : r.leftToRight = r ↔ r.rtl = none := by
  constructor
  · intro h
    rw [← h]
    rfl
  · intro h
    rw [leftToRight, ← h]

/-! ## Counterparts -/

variable {settings : Settings}

/-- Without flips a counterpart is the declaration turned to the other direction. -/
lemma counterpartDeclaration_of_unflipped (hflips : settings.flipsValues = false)
    (d : Declaration) : counterpartDeclaration settings d = .ok (turned settings d) := by
  refine counterpartDeclaration_eq_ok.mpr ⟨(turned settings d).value.toList, ?_, ?_⟩
  · rw [Settings.flip, hflips, if_neg Bool.false_ne_true]
  · rw [String.ofList_toList]

/-- Without flips every set has a counterpart. -/
lemma exists_counterpart_of_unflipped (hflips : settings.flipsValues = false)
    (s : DeclarationSet) : ∃ t, counterpart settings s = .ok t := by
  refine ⟨_, counterpart_eq_ok.mpr ⟨s.declarations.map (turned settings), ?_, rfl⟩⟩
  rw [List.forall₂_map_right_iff, List.forall₂_same]
  exact fun d _ => counterpartDeclaration_of_unflipped hflips d

/-- Under logical resolution and without flips a counterpart reads like its set. -/
lemma items_counterpart_of_logical (hlogical : settings.resolution = .logical)
    (hflips : settings.flipsValues = false) {s t : DeclarationSet}
    (hs : ∀ d ∈ s.declarations, d.Resolved settings .ltr) (ht : counterpart settings s = .ok t) :
    t.items = s.items := by
  rw [items_eq_iff]
  have hboth := (List.forall₂_and_left _ _).mpr ⟨hs, forall₂_counterpart ht⟩
  refine List.Forall₂.flip (hboth.imp fun d e hde => ?_)
  obtain ⟨hd, he⟩ := hde
  rw [counterpartDeclaration_of_unflipped hflips] at he
  obtain rfl := Except.ok.inj he
  exact turned_of_logical hlogical hd

theorem rtl_of_compileBlock (hlogical : settings.resolution = .logical)
    (hflips : settings.flipsValues = false) {context : Context} {style : Value} {r : Rule}
    (h : compileBlock settings context style = .ok r) : r.rtl = none := by
  obtain ⟨tidied, s, t, _, hs, ht, rfl⟩ := exists_of_compileBlock h
  have hitems := items_counterpart_of_logical hlogical hflips (fun d hd => resolved_of_mem hs hd) ht
  rw [if_pos hitems]
  rfl

theorem rtl_of_compileKeyframes (hlogical : settings.resolution = .logical)
    (hflips : settings.flipsValues = false) {definition : Value} {r : Rule}
    (h : compileKeyframes settings definition = .ok r) : r.rtl = none := by
  obtain ⟨entries, _, h⟩ := bind_eq_ok.mp h
  obtain ⟨frames, hframes, h⟩ := bind_eq_ok.mp h
  obtain rfl := pure_eq_ok.mp h
  obtain ⟨mirrored, hmirrored⟩ := Frame.exists_mirrored (Frame.forall₂_of_compileFrames hframes)
  have hsame : (frames.any fun f => f.rtl.isSome) = false := by
    rw [any_isSome_eq_false_iff hmirrored, ltrFrames, List.forall₂_map_right_iff]
    refine List.Forall₂.flip (hmirrored.imp fun f m hm => ?_)
    exact items_counterpart_of_logical hlogical hflips hm.resolved hm.counterpart
  rw [keyframesRule, hsame]
  rfl

/-- Each rule of a document's sheet is without a right-to-left text. -/
theorem rtl_of_mem_sheet (hlogical : settings.resolution = .logical)
    (hflips : settings.flipsValues = false) {document : List (Key × Value)} {b : Bundle}
    (h : compileDocument settings document = .ok b) : ∀ e ∈ b.sheet.entries, e.2.rtl = none := by
  obtain ⟨definitions, styles, leaves, _, _, _, hmem⟩ := exists_of_mem_sheet h
  intro e he
  rcases hmem e he with ⟨definition, _, hr⟩ | ⟨l, _, hr⟩
  · exact rtl_of_compileKeyframes hlogical hflips hr
  · exact rtl_of_compileBlock hlogical hflips hr

/-! ## The left-to-right part of a rule -/

section

variable (settings : Settings)

/-- What a style resolves to has nothing to do with flips. -/
lemma resolveEntries_unflipped (direction : Direction) (before : DeclarationSet)
    (entries : List (Key × Value)) :
    resolveEntriesIn (m := Outcome) settings.unflipped direction before entries =
      resolveEntriesIn settings direction before entries := by
  have hresolve : ∀ name value,
      resolve settings.unflipped direction name value = resolve settings direction name value := by
    intro name value
    rw [resolve_eq, resolve_eq]
    rfl
  induction entries generalizing before with
  | nil => rfl
  | cons entry rest ih => simp only [resolveEntriesIn, resolveIn_outcome, hresolve, ih]

/-- A set that is compiled with its counterpart is compiled without flips too. -/
lemma withCounterpart_unflipped (s : DeclarationSet) :
    RefinesUpTo (fun x y => x.1 = y.1) (withCounterpartIn settings s)
      (withCounterpartIn settings.unflipped s) := by
  intro x hx
  obtain ⟨hs, _⟩ := withCounterpart_eq_ok hx
  have hflips : settings.unflipped.flipsValues = false := rfl
  obtain ⟨t, ht⟩ := exists_counterpart_of_unflipped hflips s
  obtain ⟨other, hother⟩ := exists_withCounterpart ht
  exact ⟨(s, other), hother, hs⟩

theorem refinesUpTo_compileBlock (context : Context) (style : Value) :
    RefinesUpTo (fun r r' => r.leftToRight = r'.leftToRight) (compileBlock settings context style)
      (compileBlock settings.unflipped context style) := by
  refine .bind_same _ fun entries => .bind_same _ fun _ => .bind_same _ fun tidied => ?_
  rw [resolveEntries_unflipped]
  refine .bind_same _ fun s => (withCounterpart_unflipped settings s).bind fun _ _ _ => ?_
  exact .of_ok rfl

/-- Frames of one selector and one left-to-right set. -/
def Frame.SameLtr (f f' : Frame) : Prop :=
  f.selector = f'.selector ∧ f.ltr = f'.ltr

lemma refinesUpTo_compileFrame (seen : List String) (key : Key) (frame : Value) :
    RefinesUpTo Frame.SameLtr (compileFrameIn settings seen key frame)
      (compileFrameIn settings.unflipped seen key frame) := by
  have hresolve : ∀ selector, resolveFrameIn (m := Outcome) settings.unflipped selector frame =
      resolveFrameIn settings selector frame := by
    intro selector
    cases frame with
    | map entries => simp only [resolveFrameIn, resolveEntries_unflipped]
    | _ => rfl
  refine .bind_same _ fun selector => ?_
  rw [hresolve]
  refine .bind_same _ fun s => (withCounterpart_unflipped settings s).bind fun _ _ hltr => ?_
  exact .of_ok ⟨rfl, hltr⟩

lemma refinesUpTo_compileFrames (seen : List String) (entries : List (Key × Value)) :
    RefinesUpTo (List.Forall₂ Frame.SameLtr) (compileFramesIn settings seen entries)
      (compileFramesIn settings.unflipped seen entries) := by
  induction entries generalizing seen with
  | nil => exact .of_ok .nil
  | cons entry rest ih =>
      refine (refinesUpTo_compileFrame settings seen entry.1 entry.2).bind fun f f' hf => ?_
      rw [hf.1]
      exact (ih _).bind fun _ _ hfs => .of_ok (.cons hf hfs)

theorem refinesUpTo_compileKeyframes (definition : Value) :
    RefinesUpTo (fun r r' => r.leftToRight = r'.leftToRight) (compileKeyframes settings definition)
      (compileKeyframes settings.unflipped definition) := by
  refine .bind_same _ fun entries => ?_
  refine (refinesUpTo_compileFrames settings [] entries).bind fun frames frames' hframes => ?_
  have hltr : ltrFrames frames = ltrFrames frames' :=
    map_eq_map_iff_forall₂.mpr (hframes.imp fun _ _ hf => Prod.ext hf.1 hf.2)
  refine .of_ok ?_
  rw [Rule.leftToRight, Rule.leftToRight, keyframesRule, keyframesRule, hltr]
  rfl

/-- **The left-to-right part of a rule has nothing to do with flips.** -/
theorem compilesUpTo_unflipped :
    CompilesUpTo (fun r r' => r.leftToRight = r'.leftToRight) settings settings.unflipped where
  identifier r r' h := by
    have hname := congrArg Rule.identifier h
    exact hname
  block := refinesUpTo_compileBlock settings
  keyframes := refinesUpTo_compileKeyframes settings

end

/-! ## The left-to-right part of a document -/

lemma Sheet.sorted_leftToRight (s : Sheet) :
    s.leftToRight.sorted = s.sorted.map Rule.leftToRight := by
  have hmap := List.map_mergeSort (r := fun a b : Rule => decide (a.priority ≤ b.priority))
    (s := fun a b : Rule => decide (a.priority ≤ b.priority)) (f := Rule.leftToRight)
    (l := s.entries.map Prod.snd) fun _ _ _ _ => rfl
  rw [sorted, sorted, hmap, leftToRight, List.map_map, List.map_map]
  rfl

lemma Sheet.ltrText_leftToRight (s : Sheet) : s.leftToRight.ltrText = s.ltrText := by
  rw [ltrText, sorted_leftToRight, List.map_map]
  rfl

/-- Without right-to-left texts both sheets are the left-to-right sheet. -/
lemma Sheet.rtlText_leftToRight (s : Sheet) : s.leftToRight.rtlText = s.ltrText := by
  rw [rtlText, sorted_leftToRight, List.map_map]
  rfl

lemma Sheet.leftToRight_eq_self {s : Sheet} (h : ∀ e ∈ s.entries, e.2.rtl = none) :
    s.leftToRight = s := by
  have hentries : s.entries.map (fun e => (e.1, e.2.leftToRight)) = s.entries := by
    rw [List.map_congr_left fun e he => ?_, List.map_id]
    rw [Rule.leftToRight_eq_self_iff.mpr (h e he)]
    rfl
  rw [leftToRight, hentries]

lemma Bundle.ruleCount_leftToRight (b : Bundle) : b.leftToRight.ruleCount = b.ruleCount :=
  List.length_map _

lemma Bundle.leftToRight_eq_of_related {b b' : Bundle}
    (h : b.Related (fun r r' => r.leftToRight = r'.leftToRight) b') :
    b.leftToRight = b'.leftToRight := by
  have hentries : b.sheet.entries.map (fun e => (e.1, e.2.leftToRight)) =
      b'.sheet.entries.map fun e => (e.1, e.2.leftToRight) :=
    map_eq_map_iff_forall₂.mpr (h.entries.imp fun _ _ hkeyed => Prod.ext hkeyed.1 hkeyed.2)
  rw [leftToRight, leftToRight, Sheet.leftToRight, Sheet.leftToRight, hentries, h.keyframes,
    h.styles]

/-! ## The switch -/

/-- **Only right-to-left text depends on flips.**  Under logical resolution and without flips no rule
has a right-to-left text of its own, and the two sheets of a document are one.  In either resolution,
what compiles compiles without flips too, to the same but for right-to-left texts: a class rule, a
keyframes rule, and a document with its manifest, its left-to-right sheet and its number of rules. -/
theorem leftToRight_of_unflipped (settings : Settings) :
    (settings.resolution = .logical → settings.flipsValues = false →
      (∀ context style r, compileBlock settings context style = .ok r → r.rtl = none) ∧
        (∀ definition r, compileKeyframes settings definition = .ok r → r.rtl = none) ∧
        ∀ document b, compileDocument settings document = .ok b →
          (∀ e ∈ b.sheet.entries, e.2.rtl = none) ∧ b.sheet.rtlText = b.sheet.ltrText) ∧
    (∀ context style r, compileBlock settings context style = .ok r →
      ∃ r', compileBlock settings.unflipped context style = .ok r' ∧
        r'.leftToRight = r.leftToRight) ∧
    (∀ definition r, compileKeyframes settings definition = .ok r →
      ∃ r', compileKeyframes settings.unflipped definition = .ok r' ∧
        r'.leftToRight = r.leftToRight) ∧
    ∀ document b, compileDocument settings document = .ok b →
      ∃ b', compileDocument settings.unflipped document = .ok b' ∧
        b'.leftToRight = b.leftToRight ∧ b'.sheet.ltrText = b.sheet.ltrText ∧
          b'.ruleCount = b.ruleCount := by
  have hrules := compilesUpTo_unflipped settings
  refine ⟨fun hlogical hflips => ⟨?_, ?_, ?_⟩, ?_, ?_, ?_⟩
  · exact fun _ _ _ h => rtl_of_compileBlock hlogical hflips h
  · exact fun _ _ h => rtl_of_compileKeyframes hlogical hflips h
  · intro document b h
    have hrtl := rtl_of_mem_sheet hlogical hflips h
    have hsheet := b.sheet.rtlText_leftToRight
    rw [Sheet.leftToRight_eq_self hrtl] at hsheet
    exact ⟨hrtl, hsheet⟩
  · intro context style r h
    obtain ⟨r', hr', hsame⟩ := hrules.block context style r h
    exact ⟨r', hr', hsame.symm⟩
  · intro definition r h
    obtain ⟨r', hr', hsame⟩ := hrules.keyframes definition r h
    exact ⟨r', hr', hsame.symm⟩
  · intro document b h
    obtain ⟨b', hb', hrelated⟩ := hrules.refinesUpTo_compileDocument document b h
    have hsame := Bundle.leftToRight_eq_of_related hrelated
    refine ⟨b', hb', hsame.symm, ?_, ?_⟩
    · calc b'.sheet.ltrText
          = b'.leftToRight.sheet.ltrText := b'.sheet.ltrText_leftToRight.symm
        _ = b.leftToRight.sheet.ltrText := by rw [hsame]
        _ = b.sheet.ltrText := b.sheet.ltrText_leftToRight
    · rw [← b'.ruleCount_leftToRight, ← hsame, b.ruleCount_leftToRight]

/-- A document with a logical property, a logical keyword and a shadow, which is flipped. -/
def shadowDocument : List (Key × Value) := [
  (.text "keyframes", .map [
    (.text "slide", .map [(.text "from", .map [(.text "start", .text "1px")])])]),
  (.text "styles", .map [
    (.text "box", .map [
      (.text "boxShadow", .text "1px 2px"),
      (.text "float", .text "start")])])]

/-- Without flips the shadow is not flipped, and physical resolution still turns the rest; logical
resolution does not. -/
theorem leftToRight_of_shadowDocument :
    ∃ (r r' k k' : Rule) (b b' c : Bundle),
      (compileBlock { resolution := .physical } {} (.map [(.text "boxShadow", .text "1px 2px")]) =
          .ok r ∧
        compileBlock { resolution := .physical, flipsValues := false } {}
          (.map [(.text "boxShadow", .text "1px 2px")]) = .ok r' ∧
        r'.leftToRight = r.leftToRight ∧ r'.rtl ≠ r.rtl) ∧
      (compileKeyframes { resolution := .physical }
          (.map [(.text "from", .map [(.text "start", .text "1px")])]) = .ok k ∧
        compileKeyframes { resolution := .physical, flipsValues := false }
          (.map [(.text "from", .map [(.text "start", .text "1px")])]) = .ok k' ∧
        k'.leftToRight = k.leftToRight) ∧
      (compileDocument { resolution := .physical } shadowDocument = .ok b ∧
        compileDocument { resolution := .physical, flipsValues := false } shadowDocument = .ok b' ∧
        b'.leftToRight = b.leftToRight ∧ b'.sheet.ltrText = b.sheet.ltrText ∧
        b'.ruleCount = b.ruleCount ∧ b'.sheet.entries ≠ b.sheet.entries ∧
        ∃ e ∈ b'.sheet.entries, e.2.rtl ≠ none) ∧
      compileDocument { flipsValues := false } shadowDocument = .ok c ∧
        (∀ e ∈ c.sheet.entries, e.2.rtl = none) ∧ c.sheet.rtlText = c.sheet.ltrText := by
  have hrun : (do
      let r ← compileBlock { resolution := .physical } {}
        (.map [(.text "boxShadow", .text "1px 2px")])
      let r' ← compileBlock { resolution := .physical, flipsValues := false } {}
        (.map [(.text "boxShadow", .text "1px 2px")])
      let k ← compileKeyframes { resolution := .physical }
        (.map [(.text "from", .map [(.text "start", .text "1px")])])
      let b ← compileDocument { resolution := .physical } shadowDocument
      let b' ← compileDocument { resolution := .physical, flipsValues := false } shadowDocument
      let c ← compileDocument { flipsValues := false } shadowDocument
      pure (decide (r'.rtl ≠ r.rtl), decide (b'.sheet.entries ≠ b.sheet.entries),
        decide (∃ e ∈ b'.sheet.entries, e.2.rtl ≠ none)) : Outcome (Bool × Bool × Bool)) =
      .ok (true, true, true) := eq_ok_of_toOption (by decide +kernel)
  simp only [bind_eq_ok, pure_eq_ok, Prod.mk.injEq, decide_eq_true_eq] at hrun
  obtain ⟨r, hr, r', hr', k, hk, b, hb, b', hb', c, hc, hrtl, hsheets, hturned⟩ := hrun
  obtain ⟨_, hblock, hframes, hdocument⟩ := leftToRight_of_unflipped { resolution := .physical }
  obtain ⟨r'', hr'', hrule⟩ := hblock _ _ _ hr
  obtain rfl := Except.ok.inj (hr'.symm.trans hr'')
  obtain ⟨k', hk', hkeyframes⟩ := hframes _ _ hk
  obtain ⟨b'', hb'', hbundle, hltr, hcount⟩ := hdocument _ _ hb
  obtain rfl := Except.ok.inj (hb'.symm.trans hb'')
  obtain ⟨_, _, hlogical⟩ := (leftToRight_of_unflipped { flipsValues := false }).1 rfl rfl
  exact ⟨r, r', k, k', b, b', c, ⟨hr, hr', hrule, hrtl⟩, ⟨hk, hk', hkeyframes⟩,
    ⟨hb, hb', hbundle, hltr, hcount, hsheets, hturned⟩, hc, hlogical _ _ hc⟩

end AtomicStyle
