import AtomicStyle.Proofs.Keyframes.Acceptance

/-!
# Which frame a rejected definition is blamed for

A definition that is not accepted is rejected at its first entry that is no frame, or that repeats a
selector.

**Mirroring.**  Flipping a value may end in a fault, but it rejects nothing
(`rejectsNothing_withCounterpart`).  So only the selector of an entry and its style are objected to.

**Objections.**  `Objection` lists what is said of an entry behind the selectors seen.  An entry
that is objected to is no frame under a new selector (`Objection.not_isFrame`), and it is named in
what is said (`Objection.selector_eq`).

**Definitions.**  The entries in front of the one that is objected to are frames, and those behind
it are not looked at (`exists_of_compileFrames_eq_reject`, `compileFrames_append_eq_reject`).
-/

namespace AtomicStyle

variable {settings : Settings}

/-! ## Mirroring -/

namespace Flip

lemma rejectsNothing_opposite (word : List Char) : RejectsNothing (opposite word) := by
  unfold opposite
  dsimp only
  split_ifs
  · exact .of_ok right
  · exact .of_ok left
  · exact .of_fault _

lemma rejectsNothing_flipWordsFrom (before : Option Char) (skip : Nat) (text : List Char) :
    RejectsNothing (flipWordsFrom before skip text) := by
  induction text generalizing before skip with
  | nil => exact .of_ok []
  | cons c cs ih =>
      rw [flipWordsFrom]
      split_ifs
      · exact ih _ _
      · split
        · exact (rejectsNothing_opposite _).bind fun flipped => (ih _ _).bind_pure (flipped ++ ·)
        · exact (ih _ _).bind_pure (c :: ·)

lemma rejectsNothing_flipGradientsFrom (skip : Nat) (text : List Char) :
    RejectsNothing (flipGradientsFrom skip text) := by
  induction text generalizing skip with
  | nil => exact .of_ok []
  | cons c cs ih =>
      rw [flipGradientsFrom]
      split_ifs
      · exact ih _
      · split
        case h_1 head direction _ =>
            exact (rejectsNothing_flipWordsFrom _ _ direction).bind fun flipped =>
              (ih _).bind_pure (head ++ flipped ++ ·)
        case h_2 => exact (ih _).bind_pure (c :: ·)

lemma rejectsNothing_flipValue (property : String) (value : List Char) :
    RejectsNothing (flipValue property value) := by
  refine RejectsNothing.bind_pure ?_ _
  unfold flipBody
  split_ifs
  · exact .of_ok _
  · exact .of_ok _
  · exact rejectsNothing_flipWordsFrom _ _ _
  · exact rejectsNothing_flipGradientsFrom _ _

end Flip

lemma rejectsNothing_counterpartDeclaration (d : Declaration) :
    RejectsNothing (counterpartDeclaration settings d) := by
  rw [counterpartDeclaration_eq, Settings.flip]
  refine RejectsNothing.bind_pure ?_ _
  split_ifs
  · exact Flip.rejectsNothing_flipValue _ _
  · exact .of_ok _

lemma rejectsNothing_firstSensitive? (ds : List Declaration) :
    RejectsNothing (firstSensitive? settings ds) := by
  induction ds with
  | nil => exact .of_ok none
  | cons d ds ih =>
      refine (rejectsNothing_counterpartDeclaration d).bind fun other => ?_
      split_ifs
      · exact .of_ok _
      · exact ih

/-- **A set is given its counterpart without being rejected.** -/
theorem rejectsNothing_withCounterpart (s : DeclarationSet) :
    RejectsNothing (withCounterpartIn settings s) := by
  refine (rejectsNothing_firstSensitive? _).bind fun sensitive => ?_
  cases sensitive with
  | none => exact .of_ok _
  | some d =>
      have hmap : RejectsNothing (s.declarations.mapM (counterpartDeclaration settings)) :=
        RejectsNothing.mapM rejectsNothing_counterpartDeclaration s.declarations
      exact (hmap.bind_pure _).bind_pure _

/-! ## Objections -/

/-- What is objected to in an entry behind the selectors seen. -/
inductive Objection (settings : Settings) (seen : List String) : Key × Value → Rejection → Prop
  | selectorNotText (n : Int) (frame : Value) :
      Objection settings seen (.number n, frame)
        { reason := .selectorNotText, selector := (Value.int n).display, fragment := frame }
  | badSelector {s : String} (frame : Value)
      (h : ∃ part ∈ selectorParts s, isFramePart part = false) :
      Objection settings seen (.text s, frame)
        { reason := .badSelector, selector := s, fragment := frame }
  | duplicateSelector {key : Key} (frame : Value) {selector : String} (h : Spells key selector)
      (hseen : selector ∈ seen) :
      Objection settings seen (key, frame)
        { reason := .duplicateSelector, selector := selector, fragment := frame }
  | frameNotStyle {key : Key} {frame : Value} {selector : String} (h : Spells key selector)
      (hnew : selector ∉ seen) (hframe : ∀ entries, frame ≠ .map entries) :
      Objection settings seen (key, frame)
        { reason := .frameNotStyle, selector := selector, fragment := frame }
  | value {key : Key} {entries : List (Key × Value)} {selector : String} {r : Rejection}
      (h : Spells key selector) (hnew : selector ∉ seen) (hr : checkScalars entries = reject r) :
      Objection settings seen (key, .map entries) (r.inSelector selector)
  | style {key : Key} {entries : List (Key × Value)} {selector : String} {r : Rejection}
      (h : Spells key selector) (hnew : selector ∉ seen) (hscalars : ∀ e ∈ entries, IsScalar e.2)
      (hr : resolveStyle settings .ltr (.map entries) = reject r) :
      Objection settings seen (key, .map entries) (r.inSelector selector)

/-- The selector that an objection names: the canonical one, or else the key as it was given. -/
def blamedSelector : Key → String
  | .number n => (Value.int n).display
  | .text s =>
    if (selectorParts s).all isFramePart then
      String.ofList (Text.joinWith ',' (selectorParts s))
    else s

lemma blamedSelector_of_spells {key : Key} {selector : String} (h : Spells key selector) :
    blamedSelector key = selector := by
  obtain ⟨s, rfl, hparts, rfl⟩ := h
  exact if_pos (List.all_eq_true.mpr hparts)

section

variable {seen : List String} {entry : Key × Value} {r : Rejection}

/-- **An objection names the entry that it is made to.** -/
theorem Objection.selector_eq (h : Objection settings seen entry r) :
    r.selector = some (blamedSelector entry.1) := by
  cases h with
  | selectorNotText n frame => rfl
  | badSelector frame h =>
      obtain ⟨part, hpart, hnot⟩ := h
      have hall : ¬(selectorParts _).all isFramePart = true := fun hall => by
        rw [List.all_eq_true.mp hall part hpart] at hnot
        cases hnot
      exact congrArg some (if_neg hall).symm
  | duplicateSelector frame h _ => exact congrArg some (blamedSelector_of_spells h).symm
  | frameNotStyle h _ _ => exact congrArg some (blamedSelector_of_spells h).symm
  | value h _ _ => exact congrArg some (blamedSelector_of_spells h).symm
  | style h _ _ _ => exact congrArg some (blamedSelector_of_spells h).symm

/-- An entry that is objected to is no frame under a new selector. -/
theorem Objection.not_isFrame (h : Objection settings seen entry r) :
    ¬∃ selector, IsFrame settings entry selector ∧ selector ∉ seen := by
  rintro ⟨selector, ⟨hspells, ⟨entries, hentries, hscalars⟩, s, hs, _⟩, hnew⟩
  cases h with
  | selectorNotText n frame =>
      obtain ⟨_, hkey, _⟩ := hspells
      cases hkey
  | badSelector frame h =>
      obtain ⟨part, hpart, hnot⟩ := h
      obtain ⟨_, hkey, hall, _⟩ := hspells
      obtain rfl := Key.text.inj hkey
      rw [hall part hpart] at hnot
      cases hnot
  | duplicateSelector frame h hseen => exact hnew (hspells.unique h ▸ hseen)
  | frameNotStyle _ _ hframe => exact hframe entries hentries
  | value _ _ hr =>
      obtain rfl := Value.map.inj hentries
      rw [checkScalars_eq_ok.mpr hscalars] at hr
      exact reject_ne_ok _ _ hr.symm
  | style _ _ _ hr => exact reject_ne_ok _ _ (hr.symm.trans hs)

/-- Only what was seen matters, and not in which order. -/
lemma Objection.congr {seen' : List String} (hseen : ∀ s, s ∈ seen ↔ s ∈ seen')
    (h : Objection settings seen entry r) : Objection settings seen' entry r := by
  cases h with
  | selectorNotText n frame => exact .selectorNotText n frame
  | badSelector frame h => exact .badSelector frame h
  | duplicateSelector frame h hmem => exact .duplicateSelector frame h ((hseen _).mp hmem)
  | frameNotStyle h hnew hframe =>
      exact .frameNotStyle h (fun hmem => hnew ((hseen _).mpr hmem)) hframe
  | value h hnew hr => exact .value h (fun hmem => hnew ((hseen _).mpr hmem)) hr
  | style h hnew hscalars hr =>
      exact .style h (fun hmem => hnew ((hseen _).mpr hmem)) hscalars hr

lemma objection_of_newSelector {key : Key} {frame : Value}
    (h : newSelector seen key frame = reject r) : Objection settings seen (key, frame) r := by
  rcases bind_eq_reject.mp h with hselector | ⟨selector, hselector, h⟩
  · cases key with
    | number n =>
        obtain rfl := Failure.rejected.inj (Except.error.inj hselector)
        exact .selectorNotText n frame
    | text s =>
        have hselector : textSelector s frame = reject r := hselector
        rw [textSelector_eq] at hselector
        split_ifs at hselector with hall
        · exact absurd hselector.symm (reject_ne_ok _ _)
        · obtain rfl := Failure.rejected.inj (Except.error.inj hselector)
          refine .badSelector frame ?_
          simpa using hall
  · simp only [reject_bind] at h
    split_ifs at h with hseen
    · obtain rfl := Failure.rejected.inj (Except.error.inj h)
      exact .duplicateSelector frame (frameSelector_eq_ok.mp hselector)
        (List.contains_iff_mem.mp hseen)
    · exact absurd h.symm (reject_ne_ok _ _)

lemma atSelector_eq_reject {α : Type} {selector : String} {x : Outcome α} :
    atSelector selector x = reject r ↔ ∃ r', x = reject r' ∧ r'.inSelector selector = r := by
  cases x with
  | ok a => simp [atSelector, reject]
  | error e => cases e <;> simp [atSelector, reject, Failure.inSelector]

/-- **An entry is rejected for what is objected to in it.** -/
theorem objection_of_compileFrame
    (h : compileFrameIn (m := Outcome) settings seen entry.1 entry.2 = reject r) :
    Objection settings seen entry r := by
  obtain ⟨key, frame⟩ := entry
  rcases bind_eq_reject.mp h with hselector | ⟨selector, hselector, h⟩
  · exact objection_of_newSelector hselector
  obtain ⟨hspells, hnew⟩ := newSelector_eq_ok.mp hselector
  rcases bind_eq_reject.mp h with hframe | ⟨s, _, h⟩
  · cases frame with
    | map entries =>
        obtain ⟨r', hr', rfl⟩ := atSelector_eq_reject.mp hframe
        rcases bind_eq_reject.mp hr' with hscalars | ⟨_, hscalars, hr'⟩
        · exact .value hspells hnew hscalars
        · exact .style hspells hnew (checkScalars_eq_ok.mp hscalars) hr'
    | _ =>
        obtain rfl := Failure.rejected.inj (Except.error.inj hframe)
        exact .frameNotStyle hspells hnew fun _ h => nomatch h
  · -- nothing behind the style is rejected
    exact absurd h ((rejectsNothing_withCounterpart s).bind_pure _ r)

end

/-! ## Definitions -/

section

variable {seen : List String} {r : Rejection}

/-- The selectors behind some frames: theirs, the last first, and those seen before. -/
def seenBehind (seen : List String) (frames : List Frame) : List String :=
  (frames.map Frame.selector).reverse ++ seen

/-- A rejection of a definition is that of one entry, behind entries that were accepted. -/
lemma exists_of_compileFrames_eq_reject {entries : List (Key × Value)}
    (h : compileFramesIn (m := Outcome) settings seen entries = reject r) :
    ∃ before entry after frames, entries = before ++ entry :: after ∧
      compileFramesIn (m := Outcome) settings seen before = .ok frames ∧
        compileFrameIn (m := Outcome) settings (seenBehind seen frames) entry.1 entry.2 =
          reject r := by
  induction entries generalizing seen with
  | nil => exact absurd h.symm (reject_ne_ok _ _)
  | cons entry rest ih =>
      rcases bind_eq_reject.mp h with hentry | ⟨f, hf, h⟩
      · exact ⟨[], entry, rest, [], rfl, rfl, hentry⟩
      · rcases bind_eq_reject.mp h with hrest | ⟨fs, _, h⟩
        · obtain ⟨before, other, after, frames, rfl, hframes, hother⟩ := ih hrest
          refine ⟨entry :: before, other, after, f :: frames, rfl, ?_, ?_⟩
          · exact bind_eq_ok.mpr ⟨f, hf, bind_eq_ok.mpr ⟨frames, hframes, rfl⟩⟩
          · rwa [seenBehind, List.map_cons, List.reverse_cons, List.append_assoc]
        · exact absurd h.symm (reject_ne_ok _ _)

/-- What stands behind an entry that is rejected is not looked at. -/
lemma compileFrames_append_eq_reject {before : List (Key × Value)} {entry : Key × Value}
    {frames : List Frame}
    (hbefore : compileFramesIn (m := Outcome) settings seen before = .ok frames)
    (hentry : compileFrameIn (m := Outcome) settings (seenBehind seen frames) entry.1 entry.2 =
      reject r)
    (after : List (Key × Value)) :
    compileFramesIn (m := Outcome) settings seen (before ++ entry :: after) = reject r := by
  induction before generalizing seen frames with
  | nil =>
      obtain rfl := Except.ok.inj hbefore
      exact bind_eq_reject.mpr (Or.inl hentry)
  | cons first before ih =>
      obtain ⟨f, hf, h⟩ := bind_eq_ok.mp hbefore
      obtain ⟨fs, hfs, h⟩ := bind_eq_ok.mp h
      obtain rfl := pure_eq_ok.mp h
      rw [seenBehind, List.map_cons, List.reverse_cons, List.append_assoc] at hentry
      exact bind_eq_reject.mpr (Or.inr ⟨f, hf, bind_eq_reject.mpr (Or.inl (ih hfs hentry))⟩)

end

lemma compileKeyframes_eq_ok {entries : List (Key × Value)} {r : Rule} :
    compileKeyframes settings (.map entries) = .ok r ↔
      entries ≠ [] ∧ ∃ frames, compileFramesIn (m := Outcome) settings [] entries = .ok frames ∧
        keyframesRule settings frames = r := by
  cases entries with
  | nil => exact iff_of_false (reject_ne_ok _ _) fun h => h.1 rfl
  | cons entry rest =>
      simp only [compileKeyframes, compileKeyframesIn, keyframesEntries, Compiling.step_outcome,
        Compiling.note_bind, bind_eq_ok, pure_eq_ok, Except.ok.injEq, exists_eq_left', ne_eq,
        reduceCtorEq, not_false_eq_true, true_and]

lemma compileKeyframes_eq_reject {entries : List (Key × Value)} (h : entries ≠ []) {r : Rejection} :
    compileKeyframes settings (.map entries) = reject r ↔
      compileFramesIn (m := Outcome) settings [] entries = reject r := by
  obtain ⟨entry, rest, rfl⟩ := List.exists_cons_of_ne_nil h
  constructor
  · intro h
    rcases bind_eq_reject.mp h with h | ⟨_, hentries, h⟩
    · exact absurd h.symm (reject_ne_ok _ _)
    · obtain rfl := Except.ok.inj hentries
      rcases bind_eq_reject.mp h with h | ⟨_, _, h⟩
      · exact h
      · exact absurd h.symm (reject_ne_ok _ _)
  · intro h
    exact bind_eq_reject.mpr (Or.inr ⟨_, rfl, bind_eq_reject.mpr (Or.inl h)⟩)

/-- **A definition is accepted exactly when it has entries and they are frames under distinct
selectors.** -/
theorem exists_compileKeyframes_iff {entries : List (Key × Value)} :
    (∃ r, compileKeyframes settings (.map entries) = .ok r) ↔
      entries ≠ [] ∧ ∃ selectors, List.Forall₂ (IsFrame settings) entries selectors ∧
        selectors.Nodup := by
  constructor
  · rintro ⟨r, h⟩
    obtain ⟨hne, frames, hframes, _⟩ := compileKeyframes_eq_ok.mp h
    obtain ⟨hforall, hnodup, _⟩ := exists_compileFrames_iff.mp ⟨frames, hframes, rfl⟩
    exact ⟨hne, _, hforall, hnodup⟩
  · rintro ⟨hne, selectors, hforall, hnodup⟩
    obtain ⟨frames, hframes, _⟩ :=
      exists_compileFrames_iff.mpr ⟨hforall, hnodup, fun _ _ => List.not_mem_nil⟩
    exact ⟨_, compileKeyframes_eq_ok.mpr ⟨hne, frames, hframes, rfl⟩⟩

/-- The texts of an accepted definition hold a block for each entry, in order, under the selectors
of the entries: the declarations that the entry resolves to, or else their counterparts. -/
theorem frames_of_compileKeyframes {entries : List (Key × Value)} {r : Rule}
    (h : compileKeyframes settings (.map entries) = .ok r) :
    ∃ (selectors : List String) (frames mirrored : List (String × DeclarationSet)),
      List.Forall₂ (IsFrame settings) entries selectors ∧ selectors.Nodup ∧
      frames.map Prod.fst = selectors ∧ mirrored.map Prod.fst = selectors ∧
      List.Forall₂ (fun e f => resolveStyle settings .ltr e.2 = .ok f.2) entries frames ∧
      List.Forall₂ (fun f m => counterpart settings f.2 = .ok m.2) frames mirrored ∧
      r.ltr = emitKeyframes r.identifier frames ∧
      ∀ text, r.rtl = some text → text = emitKeyframes r.identifier mirrored := by
  obtain ⟨_, frames, hframes, rfl⟩ := compileKeyframes_eq_ok.mp h
  obtain ⟨hforall, hnodup, _⟩ := exists_compileFrames_iff.mp ⟨frames, hframes, rfl⟩
  have hof := Frame.forall₂_of_compileFrames hframes
  obtain ⟨mirrored, hmirrored⟩ := Frame.exists_mirrored hof
  have hselectors : mirrored.map Prod.fst = frames.map Frame.selector :=
    map_eq_map_iff_forall₂.mpr (List.Forall₂.flip (hmirrored.imp fun _ _ hm => hm.selector))
  refine ⟨_, ltrFrames frames, mirrored, hforall, hnodup, ?_, ?_, ?_, ?_, rfl, ?_⟩
  · rw [ltrFrames, List.map_map]
    rfl
  · exact hselectors
  · rw [ltrFrames, List.forall₂_map_right_iff]
    exact hof.imp fun _ _ hf => hf.resolved
  · rw [ltrFrames, List.forall₂_map_left_iff]
    exact hmirrored.imp fun _ _ hm => hm.counterpart
  · intro text htext
    simp only [keyframesRule] at htext ⊢
    split_ifs at htext
    rw [← Option.some.inj htext, emitKeyframes, emitKeyframes, emitFrames_rtlFrames hmirrored]

/-- **A rejected definition is blamed on its first entry that is no frame under a new selector**,
and what stands behind that entry makes no difference. -/
theorem exists_of_compileKeyframes_eq_reject {entries : List (Key × Value)} (hne : entries ≠ [])
    {r : Rejection} (h : compileKeyframes settings (.map entries) = reject r) :
    ∃ (before : List (Key × Value)) (entry : Key × Value) (after : List (Key × Value))
      (selectors : List String), entries = before ++ entry :: after ∧
      List.Forall₂ (IsFrame settings) before selectors ∧ selectors.Nodup ∧
      (¬∃ selector, IsFrame settings entry selector ∧ selector ∉ selectors) ∧
      Objection settings selectors entry r ∧ r.selector = some (blamedSelector entry.1) ∧
      ∀ after', compileKeyframes settings (.map (before ++ entry :: after')) = reject r := by
  rw [compileKeyframes_eq_reject hne] at h
  obtain ⟨before, entry, after, frames, rfl, hframes, hentry⟩ :=
    exists_of_compileFrames_eq_reject h
  obtain ⟨hforall, hnodup, _⟩ := exists_compileFrames_iff.mp ⟨frames, hframes, rfl⟩
  have hobjection : Objection settings (frames.map Frame.selector) entry r := by
    refine (objection_of_compileFrame hentry).congr fun s => ?_
    rw [seenBehind, List.append_nil, List.mem_reverse]
  refine ⟨before, entry, after, _, rfl, hforall, hnodup, hobjection.not_isFrame, hobjection,
    hobjection.selector_eq, fun after' => ?_⟩
  rw [compileKeyframes_eq_reject (List.append_ne_nil_of_right_ne_nil _ (List.cons_ne_nil _ _))]
  exact compileFrames_append_eq_reject hframes hentry after'

/-- **The outcome of a keyframes definition.**  It is accepted exactly when it has entries, which
are frames under distinct selectors, and then its texts hold one block for each entry under its
selector.  If it has entries and is rejected, then for its first entry that is no frame under a new
selector, which is named, and whatever stands behind. -/
theorem outcome_compileKeyframes (settings : Settings) (entries : List (Key × Value)) :
    ((∃ r, compileKeyframes settings (.map entries) = .ok r) ↔
      entries ≠ [] ∧ ∃ selectors, List.Forall₂ (IsFrame settings) entries selectors ∧
        selectors.Nodup) ∧
    (∀ r, compileKeyframes settings (.map entries) = .ok r →
      ∃ (selectors : List String) (frames mirrored : List (String × DeclarationSet)),
        List.Forall₂ (IsFrame settings) entries selectors ∧ selectors.Nodup ∧
        frames.map Prod.fst = selectors ∧ mirrored.map Prod.fst = selectors ∧
        List.Forall₂ (fun e f => resolveStyle settings .ltr e.2 = .ok f.2) entries frames ∧
        List.Forall₂ (fun f m => counterpart settings f.2 = .ok m.2) frames mirrored ∧
        r.ltr = emitKeyframes r.identifier frames ∧
        ∀ text, r.rtl = some text → text = emitKeyframes r.identifier mirrored) ∧
    ∀ r, entries ≠ [] → compileKeyframes settings (.map entries) = reject r →
      ∃ (before : List (Key × Value)) (entry : Key × Value) (after : List (Key × Value))
        (selectors : List String), entries = before ++ entry :: after ∧
        List.Forall₂ (IsFrame settings) before selectors ∧ selectors.Nodup ∧
        (¬∃ selector, IsFrame settings entry selector ∧ selector ∉ selectors) ∧
        Objection settings selectors entry r ∧ r.selector = some (blamedSelector entry.1) ∧
        ∀ after', compileKeyframes settings (.map (before ++ entry :: after')) = reject r :=
  ⟨exists_compileKeyframes_iff, fun _ h => frames_of_compileKeyframes h,
    fun _ hne h => exists_of_compileKeyframes_eq_reject hne h⟩

/-- Two frames are accepted, and a third that spells the selector of the second otherwise is not,
whatever comes behind it. -/
theorem outcome_of_repeated_selector :
    (∃ r, compileKeyframes { resolution := .physical }
        (.map [(.text "from", .map [(.text "start", .text "1px")]),
          (.text " 50.5% ,to", .map [])]) = .ok r) ∧
      ∃ (r : Rejection) (before : List (Key × Value)) (entry : Key × Value),
        compileKeyframes { resolution := .physical }
            (.map [(.text "from", .map [(.text "start", .text "1px")]),
              (.text " 50.5% ,to", .map []), (.text "50.5%, to", .null), (.text "101%", .null)]) =
          reject r ∧
        r.reason = .duplicateSelector ∧ r.selector = some "50.5%,to" ∧
        r.selector = some (blamedSelector entry.1) ∧
        ∀ after, compileKeyframes { resolution := .physical } (.map (before ++ entry :: after)) =
          reject r := by
  have hfrom : IsFrame { resolution := .physical }
      (.text "from", .map [(.text "start", .text "1px")]) "from" := by
    refine ⟨⟨"from", rfl, by decide +kernel, by decide +kernel⟩, ⟨_, rfl, ?_⟩, ?_⟩
    · simp [IsScalar]
    · have hrun : (do
          let s ← resolveStyle { resolution := .physical } .ltr
            (.map [(.text "start", .text "1px")])
          let t ← counterpart { resolution := .physical } s
          pure (s, t) : Outcome (DeclarationSet × DeclarationSet)).isOk = true := by decide +kernel
      obtain ⟨⟨s, t⟩, hst⟩ := exists_eq_ok_of_isOk hrun
      obtain ⟨s, hs, hst⟩ := bind_eq_ok.mp hst
      obtain ⟨t, ht, _⟩ := bind_eq_ok.mp hst
      exact ⟨s, hs, t, ht⟩
  have hto : IsFrame { resolution := .physical } (.text " 50.5% ,to", .map []) "50.5%,to" := by
    refine ⟨⟨" 50.5% ,to", rfl, by decide +kernel, by decide +kernel⟩, ⟨[], rfl, ?_⟩, ?_⟩
    · simp
    · exact ⟨{}, rfl, .ofList [] false, rfl⟩
  obtain ⟨haccept, _, _⟩ := outcome_compileKeyframes { resolution := .physical }
    [(.text "from", .map [(.text "start", .text "1px")]), (.text " 50.5% ,to", .map [])]
  refine ⟨haccept.mpr ⟨List.cons_ne_nil _ _, _, .cons hfrom (.cons hto .nil), by decide⟩, ?_⟩
  have hrun : (rejection? (compileKeyframes { resolution := .physical }
      (.map [(.text "from", .map [(.text "start", .text "1px")]), (.text " 50.5% ,to", .map []),
        (.text "50.5%, to", .null), (.text "101%", .null)]))).map
        (fun r => (r.reason, r.selector)) = some (.duplicateSelector, some "50.5%,to") := by
    decide +kernel
  obtain ⟨r, hr, hplace⟩ := Option.map_eq_some_iff.mp hrun
  obtain ⟨hreason, hselector⟩ := Prod.mk.inj hplace
  have hreject := eq_reject_of_rejection? hr
  obtain ⟨_, _, hblame⟩ := outcome_compileKeyframes { resolution := .physical }
    [(.text "from", .map [(.text "start", .text "1px")]), (.text " 50.5% ,to", .map []),
      (.text "50.5%, to", .null), (.text "101%", .null)]
  obtain ⟨before, entry, _, _, _, _, _, _, _, hblamed, hafter⟩ :=
    hblame r (List.cons_ne_nil _ _) hreject
  exact ⟨r, before, entry, hreject, hreason, hselector, hblamed, hafter⟩

end AtomicStyle
