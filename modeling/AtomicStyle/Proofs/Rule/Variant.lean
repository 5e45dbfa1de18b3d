import AtomicStyle.Keyframes
import AtomicStyle.Proofs.Direction.Markers
import AtomicStyle.Proofs.Rule.Separation

/-!
# The right-to-left text of a rule

A rule has a right-to-left text of its own when it needs one.  The compiler decides this before any
text is made, by comparing declarations with their counterparts, and it stops at the first that
differs.  This file shows that comparing the texts would decide the same.

**Declarations.**  A counterpart has the name of its declaration, or both names are renderings of a
logical one and plain; and its value holds as many semicolons.  So the text tells the two apart
(`toldApart_counterpart`).

**Sets.**  A set is given its counterpart unless that reads like the set (`withCounterpart_eq_ok`).

**Frames.**  Of a keyframes definition only the frames that need it are given a counterpart, and the
others stand for their own.  `emitFrames_eq_iff` tells frames apart, one behind the other.
-/

namespace AtomicStyle

open Css Property Compiling

variable {settings : Settings}

/-! ## Declarations with their counterparts -/

lemma count_semicolon_counterpart {d e : Declaration} (hd : d.Resolved settings .ltr)
    (he : counterpartDeclaration settings d = .ok e) :
    e.value.toList.count ';' = d.value.toList.count ';' := by
  have hmarker : isInert ';' = false := by decide
  rw [← count_markersIn hmarker, markersIn_counterpart hd he, count_markersIn hmarker]

/-- **The text tells a counterpart and its declaration apart.** -/
theorem toldApart_counterpart {d e : Declaration} (hd : d.Resolved settings .ltr)
    (he : counterpartDeclaration settings d = .ok e) : ToldApart e d := by
  refine ⟨?_, count_semicolon_counterpart hd he⟩
  rw [property_of_counterpartDeclaration he, hd.property]
  rcases physicalName_cases settings d.origin with hname | hname
  · exact Or.inr ⟨(hname .rtl).isPlainName, (hname .ltr).isPlainName⟩
  · exact Or.inl ((hname .rtl).trans (hname .ltr).symm)

lemma forall₂_toldApart_counterpart {s t : DeclarationSet}
    (hs : ∀ d ∈ s.declarations, d.Resolved settings .ltr) (ht : counterpart settings s = .ok t) :
    List.Forall₂ ToldApart t.declarations s.declarations := by
  have hboth := (List.forall₂_and_left _ _).mpr ⟨hs, forall₂_counterpart ht⟩
  exact List.Forall₂.flip (hboth.imp fun _ _ h => toldApart_counterpart h.1 h.2)

/-! ## Sets with their counterparts -/

lemma differs_eq_false_iff {d e : Declaration} :
    d.differs e = false ↔ d.property = e.property ∧ d.value = e.value := by
  simp [Declaration.differs]

/-- No declaration is sensitive when each reads like its counterpart. -/
lemma forall₂_of_firstSensitive?_eq_none {ds : List Declaration}
    (h : firstSensitive? settings ds = .ok none) :
    ∃ es, List.Forall₂ (fun d e => counterpartDeclaration settings d = .ok e) ds es ∧
      List.Forall₂ (fun e d => e.property = d.property ∧ e.value = d.value) es ds := by
  induction ds with
  | nil => exact ⟨[], .nil, .nil⟩
  | cons d ds ih =>
      obtain ⟨e, he, h⟩ := bind_eq_ok.mp h
      split_ifs at h with hdiffers
      · cases h
      · obtain ⟨es, hes, hsame⟩ := ih h
        have hed := differs_eq_false_iff.mp (Bool.not_eq_true _ ▸ hdiffers)
        exact ⟨e :: es, .cons he hes, .cons hed hsame⟩

lemma exists_of_firstSensitive?_eq_some {ds : List Declaration} {d : Declaration}
    (h : firstSensitive? settings ds = .ok (some d)) :
    d ∈ ds ∧ ∃ e, counterpartDeclaration settings d = .ok e ∧
      ¬(e.property = d.property ∧ e.value = d.value) := by
  induction ds with
  | nil => cases h
  | cons d' ds ih =>
      obtain ⟨e, he, h⟩ := bind_eq_ok.mp h
      split_ifs at h with hdiffers
      · obtain rfl := Option.some.inj (pure_eq_ok.mp h)
        refine ⟨List.mem_cons_self, e, he, fun hsame => ?_⟩
        rw [differs_eq_false_iff.mpr hsame] at hdiffers
        cases hdiffers
      · obtain ⟨hd, hexists⟩ := ih h
        exact ⟨List.mem_cons_of_mem d' hd, hexists⟩

/-- **A set is given its counterpart unless that reads like the set.** -/
theorem withCounterpart_eq_ok {s u : DeclarationSet} {other : Option DeclarationSet}
    (h : withCounterpartIn (m := Outcome) settings s = .ok (u, other)) :
    u = s ∧ ∃ t, counterpart settings s = .ok t ∧
      other = if t.items = s.items then none else some t := by
  obtain ⟨sensitive, hsensitive, h⟩ := bind_eq_ok.mp h
  cases sensitive with
  | none =>
      obtain ⟨rfl, rfl⟩ := Prod.mk.inj (pure_eq_ok.mp h)
      obtain ⟨es, hes, hsame⟩ := forall₂_of_firstSensitive?_eq_none hsensitive
      have hitems : (DeclarationSet.ofList es false).items = s.items := by
        rw [items_eq_iff, DeclarationSet.declarations_ofList_false]
        exact hsame
      exact ⟨rfl, .ofList es false, counterpart_eq_ok.mpr ⟨es, hes, rfl⟩, (if_pos hitems).symm⟩
  | some d =>
      simp only [note_bind, step_outcome, bind_eq_ok, pure_eq_ok, Prod.mk.injEq] at h
      obtain ⟨t, ht, rfl, rfl⟩ := h
      have hitems : ¬t.items = s.items := by
        intro hitems
        obtain ⟨hd, e, he, hne⟩ := exists_of_firstSensitive?_eq_some hsensitive
        have hcounterparts : List.Forall₂
            (fun e d => counterpartDeclaration settings d = .ok e) t.declarations s.declarations :=
          List.Forall₂.flip (forall₂_counterpart ht)
        have hboth := List.Forall₂.mp (fun _ _ => And.intro) hcounterparts (items_eq_iff.mp hitems)
        obtain ⟨e', _, he', hsame⟩ := exists_of_mem_forall₂ hboth hd
        obtain rfl := Except.ok.inj (he.symm.trans he')
        exact hne hsame
      exact ⟨rfl, t, ht, (if_neg hitems).symm⟩

/-- The search for a sensitive declaration comes to its end if all have counterparts. -/
lemma exists_firstSensitive? {ds es : List Declaration}
    (h : List.Forall₂ (fun d e => counterpartDeclaration settings d = .ok e) ds es) :
    ∃ sensitive, firstSensitive? settings ds = .ok sensitive := by
  induction h with
  | nil => exact ⟨none, rfl⟩
  | @cons d e ds es hd _ ih =>
      obtain ⟨sensitive, hsensitive⟩ := ih
      rw [firstSensitive?, hd]
      by_cases hdiffers : e.differs d = true
      · exact ⟨some d, if_pos hdiffers⟩
      · exact ⟨sensitive, (if_neg hdiffers).trans hsensitive⟩

/-- A set that has a counterpart is given it if it needs one. -/
lemma exists_withCounterpart {s t : DeclarationSet} (h : counterpart settings s = .ok t) :
    ∃ other, withCounterpartIn (m := Outcome) settings s = .ok (s, other) := by
  obtain ⟨sensitive, hsensitive⟩ := exists_firstSensitive? (forall₂_counterpart h)
  cases sensitive with
  | none => exact ⟨none, bind_eq_ok.mpr ⟨none, hsensitive, rfl⟩⟩
  | some d =>
      refine ⟨some t, bind_eq_ok.mpr ⟨some d, hsensitive, ?_⟩⟩
      simp only [note_bind, step_outcome, h]
      rfl

/-! ## Rules -/

lemma braced_injective {a b : String} (h : braced a = braced b) : a = b := by
  have hlist := congrArg String.toList h
  simp only [braced, String.toList_append] at hlist
  exact String.toList_inj.mp (List.append_cancel_left (List.append_cancel_right hlist))

lemma wrapAtRules_injective {atRules : List String} {a b : String}
    (h : wrapAtRules atRules a = wrapAtRules atRules b) : a = b := by
  induction atRules with
  | nil => exact h
  | cons atRule atRules ih =>
      have hinner : braced (wrapAtRules atRules a) = braced (wrapAtRules atRules b) := by
        have hlist := congrArg String.toList h
        simp only [wrapAtRules, List.foldr_cons, String.toList_append] at hlist
        exact String.toList_inj.mp (List.append_cancel_left hlist)
      exact ih (braced_injective hinner)

/-- Rules of one name under one context have one text exactly when their declarations have. -/
lemma emitRule_eq_iff {name : String} {s t : DeclarationSet} {context : Context} :
    emitRule name s context = emitRule name t context ↔
      emitDeclarations s = emitDeclarations t := by
  constructor
  · intro h
    have hlist := congrArg String.toList (wrapAtRules_injective h)
    simp only [String.toList_append] at hlist
    exact braced_injective (String.toList_inj.mp (List.append_cancel_left hlist))
  · intro h
    rw [emitRule, emitRule, h]

/-- What a compiled rule is made of. -/
lemma exists_of_compileBlock {context : Context} {style : Value} {r : Rule}
    (h : compileBlock settings context style = .ok r) :
    ∃ tidied s t, context.tidy = .ok tidied ∧ resolveStyle settings .ltr style = .ok s ∧
      counterpart settings s = .ok t ∧
        ruleOf settings s (if t.items = s.items then none else some t) tidied = r := by
  obtain ⟨entries, hentries, h⟩ := bind_eq_ok.mp h
  obtain ⟨_, _, h⟩ := bind_eq_ok.mp h
  obtain ⟨tidied, htidied, h⟩ := bind_eq_ok.mp h
  obtain ⟨s, hs, h⟩ := bind_eq_ok.mp h
  obtain ⟨⟨u, other⟩, hother, h⟩ := bind_eq_ok.mp h
  obtain rfl := pure_eq_ok.mp h
  obtain ⟨_, t, ht, rfl⟩ := withCounterpart_eq_ok hother
  refine ⟨tidied, s, t, htidied, ?_, ht, rfl⟩
  unfold styleEntries at hentries
  split at hentries
  case h_1 =>
      obtain rfl := Except.ok.inj hentries
      exact hs
  case h_2 => exact absurd hentries (reject_ne_ok _ _)

/-! ## Frames -/

/-- What a frame of a keyframes definition is made of. -/
structure Frame.Of (settings : Settings) (entry : Key × Value) (f : Frame) : Prop where
  selector : frameSelector entry.1.toValue entry.2 = .ok f.selector
  resolved : resolveStyle settings .ltr entry.2 = .ok f.ltr
  rtl : ∃ t, counterpart settings f.ltr = .ok t ∧
    f.rtl = if t.items = f.ltr.items then none else some t

lemma frameSelector_of_newSelector {seen : List String} {key : Key} {frame : Value}
    {selector : String} (h : newSelector seen key frame = .ok selector) :
    frameSelector key.toValue frame = .ok selector := by
  obtain ⟨name, hname, h⟩ := bind_eq_ok.mp h
  simp only [reject_bind, ite_reject_eq_ok, pure_eq_ok] at h
  rw [← h.2]
  exact hname

lemma resolveStyle_of_resolveFrame {selector : String} {frame : Value} {s : DeclarationSet}
    (h : resolveFrameIn (m := Outcome) settings selector frame = .ok s) :
    resolveStyle settings .ltr frame = .ok s := by
  cases frame with
  | map entries =>
      obtain ⟨_, _, hs⟩ := bind_eq_ok.mp (atSelector_eq_ok.mp h)
      exact hs
  | _ => exact absurd h (reject_ne_ok _ _)

lemma Frame.of_compileFrame {seen : List String} {entry : Key × Value} {f : Frame}
    (h : compileFrameIn (m := Outcome) settings seen entry.1 entry.2 = .ok f) :
    Frame.Of settings entry f := by
  obtain ⟨selector, hselector, h⟩ := bind_eq_ok.mp h
  obtain ⟨resolved, hresolved, h⟩ := bind_eq_ok.mp h
  obtain ⟨⟨ltr, rtl⟩, hother, h⟩ := bind_eq_ok.mp h
  obtain rfl := pure_eq_ok.mp h
  obtain ⟨rfl, hrtl⟩ := withCounterpart_eq_ok hother
  exact ⟨frameSelector_of_newSelector hselector, resolveStyle_of_resolveFrame hresolved, hrtl⟩

lemma Frame.forall₂_of_compileFrames {seen : List String} {entries : List (Key × Value)}
    {frames : List Frame} (h : compileFramesIn (m := Outcome) settings seen entries = .ok frames) :
    List.Forall₂ (Frame.Of settings) entries frames := by
  induction entries generalizing seen frames with
  | nil =>
      obtain rfl := Except.ok.inj h
      exact .nil
  | cons entry rest ih =>
      obtain ⟨f, hf, h⟩ := bind_eq_ok.mp h
      obtain ⟨fs, hfs, h⟩ := bind_eq_ok.mp h
      obtain rfl := pure_eq_ok.mp h
      exact .cons (Frame.of_compileFrame hf) (ih hfs)

lemma toList_emitFrames_cons (f : String × DeclarationSet) (fs : List (String × DeclarationSet)) :
    (emitFrames (f :: fs)).toList = f.1.toList ++ '\x7b' :: ((emitDeclarations f.2).toList ++
      '\x7d' :: (emitFrames fs).toList) := by
  simp [emitFrames, braced, String.toList_join]

/-- **Frames that the text tells apart have the same items exactly when their texts are the same.**
The selectors are the same from the outset. -/
theorem emitFrames_eq_iff {fs gs : List (String × DeclarationSet)}
    (h : List.Forall₂ (fun f g => f.1 = g.1 ∧
      List.Forall₂ ToldApart f.2.declarations g.2.declarations) fs gs) :
    emitFrames fs = emitFrames gs ↔ List.Forall₂ (fun f g => f.2.items = g.2.items) fs gs := by
  induction h with
  | nil => exact iff_of_true rfl .nil
  | @cons f g fs gs hfg _ ih =>
      obtain ⟨hselector, hapart⟩ := hfg
      rw [List.forall₂_cons, ← ih, ← String.toList_inj, toList_emitFrames_cons,
        toList_emitFrames_cons, hselector, List.append_cancel_left_eq, List.cons.injEq]
      constructor
      · rintro ⟨_, htext⟩
        obtain ⟨hitems, hrest⟩ := items_eq_of_emitDeclarations_append hapart htext
        exact ⟨hitems, String.toList_inj.mp (List.cons.inj hrest).2⟩
      · rintro ⟨hitems, hrest⟩
        rw [emitDeclarations_eq_of_items_eq hitems, hrest]
        exact ⟨rfl, rfl⟩

/-- A frame under its selector for the other direction, whether the frame was given it or not. -/
structure Frame.Mirrored (settings : Settings) (f : Frame) (m : String × DeclarationSet) :
    Prop where
  selector : m.1 = f.selector
  resolved : ∀ d ∈ f.ltr.declarations, d.Resolved settings .ltr
  counterpart : counterpart settings f.ltr = .ok m.2
  rtl : f.rtl = if m.2.items = f.ltr.items then none else some m.2

lemma Frame.exists_mirrored {entries : List (Key × Value)} {frames : List Frame}
    (h : List.Forall₂ (Frame.Of settings) entries frames) :
    ∃ mirrored, List.Forall₂ (Frame.Mirrored settings) frames mirrored := by
  induction h with
  | nil => exact ⟨[], .nil⟩
  | @cons entry f entries frames hf _ ih =>
      obtain ⟨t, ht, hrtl⟩ := hf.rtl
      obtain ⟨mirrored, hmirrored⟩ := ih
      have hresolved : ∀ d ∈ f.ltr.declarations, d.Resolved settings .ltr :=
        fun d hd => resolved_of_mem hf.resolved hd
      exact ⟨(f.selector, t) :: mirrored, .cons ⟨rfl, hresolved, ht, hrtl⟩ hmirrored⟩

/-- A frame without a counterpart reads like the counterpart that it was not given. -/
lemma emitFrames_rtlFrames {frames : List Frame} {mirrored : List (String × DeclarationSet)}
    (h : List.Forall₂ (Frame.Mirrored settings) frames mirrored) :
    emitFrames (rtlFrames frames) = emitFrames mirrored := by
  induction h with
  | nil => rfl
  | @cons f m frames mirrored hf _ ih =>
      have htext : emitDeclarations (f.rtl.getD f.ltr) = emitDeclarations m.2 := by
        rw [hf.rtl]
        split_ifs with hitems
        · exact (emitDeclarations_eq_of_items_eq hitems).symm
        · rfl
      rw [← String.toList_inj] at ih ⊢
      rw [rtlFrames, List.map_cons, toList_emitFrames_cons, toList_emitFrames_cons, htext,
        hf.selector, ← ih]
      rfl

/-- Some frame was given a counterpart unless all counterparts read like their frames. -/
lemma any_isSome_eq_false_iff {frames : List Frame} {mirrored : List (String × DeclarationSet)}
    (h : List.Forall₂ (Frame.Mirrored settings) frames mirrored) :
    (frames.any fun f => f.rtl.isSome) = false ↔
      List.Forall₂ (fun m f => m.2.items = f.2.items) mirrored (ltrFrames frames) := by
  induction h with
  | nil => exact iff_of_true rfl .nil
  | @cons f m frames mirrored hf _ ih =>
      have hsome : f.rtl.isSome = false ↔ m.2.items = f.ltr.items := by
        rw [hf.rtl]
        split_ifs with hitems <;> simp [hitems]
      have hcons : ltrFrames (f :: frames) = (f.selector, f.ltr) :: ltrFrames frames := rfl
      rw [List.any_cons, Bool.or_eq_false_iff, ih, hsome, hcons, List.forall₂_cons]

lemma emitKeyframes_eq_iff {name : String} {fs gs : List (String × DeclarationSet)} :
    emitKeyframes name fs = emitKeyframes name gs ↔ emitFrames fs = emitFrames gs := by
  constructor
  · intro h
    have hlist := congrArg String.toList h
    simp only [emitKeyframes, String.toList_append] at hlist
    exact braced_injective (String.toList_inj.mp (List.append_cancel_left hlist))
  · intro h
    rw [emitKeyframes, emitKeyframes, h]

/-! ## The right-to-left text -/

/-- A class rule has a right-to-left text exactly when that of the counterpart is another text. -/
theorem rtl_ruleOf {s t : DeclarationSet} (hs : ∀ d ∈ s.declarations, d.Resolved settings .ltr)
    (ht : counterpart settings s = .ok t) {context : Context} {r : Rule}
    (hr : ruleOf settings s (if t.items = s.items then none else some t) context = r) :
    r.rtl = if emitRule r.identifier t context = r.ltr then none
      else some (emitRule r.identifier t context) := by
  have hiff := emitDeclarations_eq_iff (forall₂_toldApart_counterpart hs ht)
  subst hr
  simp only [ruleOf, emitRule_eq_iff, hiff]
  split_ifs <;> rfl

/-- A keyframes rule has a right-to-left text exactly when that of the mirrored frames is another
text. -/
theorem rtl_keyframesRule {frames : List Frame} {mirrored : List (String × DeclarationSet)}
    (h : List.Forall₂ (Frame.Mirrored settings) frames mirrored) {r : Rule}
    (hr : keyframesRule settings frames = r) :
    r.rtl = if emitKeyframes r.identifier mirrored = r.ltr then none
      else some (emitKeyframes r.identifier mirrored) := by
  have hapart : List.Forall₂ (fun m f => m.1 = f.1 ∧
      List.Forall₂ ToldApart m.2.declarations f.2.declarations) mirrored (ltrFrames frames) := by
    rw [ltrFrames, List.forall₂_map_right_iff]
    refine List.Forall₂.flip (h.imp fun f m hm => ⟨hm.selector, ?_⟩)
    exact forall₂_toldApart_counterpart hm.resolved hm.counterpart
  have hiff := (emitFrames_eq_iff hapart).trans (any_isSome_eq_false_iff h).symm
  subst hr
  simp only [keyframesRule, emitKeyframes_eq_iff, hiff]
  rw [emitKeyframes, emitKeyframes, emitFrames_rtlFrames h]
  cases frames.any fun f => f.rtl.isSome <;> rfl

/-- **A rule has a right-to-left text exactly when mirroring all its declarations gives another text
under the same name**, and then it is that text.  So it is for class rules, and for keyframes with
all their frames mirrored, whichever of them need it. -/
theorem rtl_eq_of_compile (settings : Settings) :
    (∀ context style r, compileBlock settings context style = .ok r →
      ∃ tidied s t, context.tidy = .ok tidied ∧ resolveStyle settings .ltr style = .ok s ∧
        counterpart settings s = .ok t ∧ r.ltr = emitRule r.identifier s tidied ∧
          r.rtl = if emitRule r.identifier t tidied = r.ltr then none
            else some (emitRule r.identifier t tidied)) ∧
      ∀ definition r, compileKeyframes settings definition = .ok r →
        ∃ entries frames mirrored, keyframesEntries definition = .ok entries ∧
          List.Forall₂ (fun e f => frameSelector e.1.toValue e.2 = .ok f.1 ∧
            resolveStyle settings .ltr e.2 = .ok f.2) entries frames ∧
          List.Forall₂ (fun f m => m.1 = f.1 ∧ counterpart settings f.2 = .ok m.2)
            frames mirrored ∧
          r.ltr = emitKeyframes r.identifier frames ∧
            r.rtl = if emitKeyframes r.identifier mirrored = r.ltr then none
              else some (emitKeyframes r.identifier mirrored) := by
  constructor
  · intro context style r h
    obtain ⟨tidied, s, t, htidied, hs, ht, hr⟩ := exists_of_compileBlock h
    have hresolved : ∀ d ∈ s.declarations, d.Resolved settings .ltr :=
      fun d hd => resolved_of_mem hs hd
    exact ⟨tidied, s, t, htidied, hs, ht, hr ▸ rfl, rtl_ruleOf hresolved ht hr⟩
  · intro definition r h
    obtain ⟨entries, hentries, h⟩ := bind_eq_ok.mp h
    obtain ⟨frames, hframes, h⟩ := bind_eq_ok.mp h
    have hr := pure_eq_ok.mp h
    have hof := Frame.forall₂_of_compileFrames hframes
    obtain ⟨mirrored, hmirrored⟩ := Frame.exists_mirrored hof
    refine ⟨entries, ltrFrames frames, mirrored, hentries, ?_, ?_, hr ▸ rfl,
      rtl_keyframesRule hmirrored hr⟩
    · rw [ltrFrames, List.forall₂_map_right_iff]
      exact hof.imp fun _ _ hf => ⟨hf.selector, hf.resolved⟩
    · rw [ltrFrames, List.forall₂_map_left_iff]
      exact hmirrored.imp fun _ _ hm => ⟨hm.selector, hm.counterpart⟩

/-- A shadow list is joined anew and a quoted semicolon stays; of two frames one is turned. -/
theorem rtl_eq_of_shadow_and_frame :
    ∃ (r k : Rule) (tidied : Context) (s t : DeclarationSet)
      (mirrored : List (String × DeclarationSet)),
      compileBlock {} {} (.map [(.text "boxShadow", .text "1px 2px , 0 3px"),
          (.text "quotes", .text "';'")]) = .ok r ∧
        r.ltr = emitRule r.identifier s tidied ∧ counterpart {} s = .ok t ∧
        r.rtl = some (emitRule r.identifier t tidied) ∧
        emitRule r.identifier t tidied ≠ r.ltr ∧
        compileKeyframes { resolution := .physical }
          (.map [(.text "from", .map [(.text "opacity", .int 0)]),
            (.text "to", .map [(.text "start", .text "1px")])]) = .ok k ∧
        k.rtl = some (emitKeyframes k.identifier mirrored) ∧
        emitKeyframes k.identifier mirrored ≠ k.ltr := by
  have hrun : (do
      let r ← compileBlock {} {} (.map [(.text "boxShadow", .text "1px 2px , 0 3px"),
        (.text "quotes", .text "';'")])
      let k ← compileKeyframes { resolution := .physical }
        (.map [(.text "from", .map [(.text "opacity", .int 0)]),
          (.text "to", .map [(.text "start", .text "1px")])])
      pure (r.rtl.isNone, k.rtl.isNone) : Outcome (Bool × Bool)) = .ok (false, false) :=
    eq_ok_of_toOption (by decide +kernel)
  simp only [bind_eq_ok, pure_eq_ok, Prod.mk.injEq] at hrun
  obtain ⟨r, hr, k, hk, hrsome, hksome⟩ := hrun
  obtain ⟨tidied, s, t, _, _, ht, hltr, hrtl⟩ := (rtl_eq_of_compile {}).1 _ _ _ hr
  obtain ⟨_, _, mirrored, _, _, _, _, hkrtl⟩ :=
    (rtl_eq_of_compile { resolution := .physical }).2 _ _ hk
  split_ifs at hrtl with hrsame
  · rw [hrtl] at hrsome
    cases hrsome
  · split_ifs at hkrtl with hksame
    · rw [hkrtl] at hksome
      cases hksome
    · exact ⟨r, k, tidied, s, t, mirrored, hr, hltr, ht, hrtl, hrsame, hk, hkrtl, hksame⟩

end AtomicStyle
