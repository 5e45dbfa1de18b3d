import AtomicStyle.Proofs.Document.Refinement
import AtomicStyle.Proofs.Property.ValueText

/-!
# Strict checking only refuses

The settings may ask for strict checking of values, of property names, or of both.  A check that is
passed leaves no trace: what compiles under strict settings compiles to the same under the
*relaxed* ones, which are equal but for the two checks.

The compiler is followed from the inside out, and each of its functions refines its relaxed
version.  The two checks are met in two places only.

**Values.**  The text of a value does not depend on the check (`refines_valueText`).

**Names.**  The relaxed check of a name is always passed (`refines_resolveEntries`).

All that follows on resolving, from the counterpart of a set to the manifest of a document, reads
other settings than these two.  For documents it is enough that the rules are the same
(`compilesUpTo_relaxed`).
-/

namespace AtomicStyle

open Css Property

/-- The settings without strict checking. -/
def Settings.relaxed (settings : Settings) : Settings :=
  { settings with strictValues := false, strictProperties := false }

/-! ## Values -/

lemma refines_numberText (strict : Bool) (property : String) (n : Numeric) :
    Refines (numberText strict property n) (numberText false property n) := by
  intro text h
  obtain ⟨hfinite, plain, hplain, h⟩ := numberText_eq_ok.mp h
  refine numberText_eq_ok.mpr ⟨hfinite, plain, hplain, ?_⟩
  revert h
  cases domain? property with
  | none => simp
  | some d => cases d <;> simp

lemma refines_stringText (strict : Bool) (property value : String) :
    Refines (stringText strict property value) (stringText false property value) := by
  intro text h
  obtain ⟨hne, body, hbody, hsafe, _, htext⟩ := stringText_eq_ok.mp h
  exact stringText_eq_ok.mpr ⟨hne, body, hbody, hsafe, nofun, htext⟩

/-- **The text of a value does not depend on strict checking.** -/
theorem refines_valueText (strict : Bool) (property : String) (v : Value) :
    Refines (valueText strict property v) (valueText false property v) := by
  cases v with
  | int n => exact refines_numberText strict property (.int n)
  | float x => exact refines_numberText strict property (.float x)
  | text s => exact refines_stringText strict property s
  | _ => exact .refl _

/-! ## Styles -/

section

variable (settings : Settings)

lemma refines_resolve (direction : Direction) (name : String) (value : Value) :
    Refines (resolve settings direction name value)
      (resolve settings.relaxed direction name value) := by
  rw [resolve_eq, resolve_eq]
  refine .bind (fun _ _ => rfl) fun _ => .bind (.mapM (fun l => ?_) _) fun _ => .refl _
  exact .bind (refines_valueText _ _ _) fun _ => .refl _

lemma refines_resolveEntries (direction : Direction) (before : DeclarationSet)
    (entries : List (Key × Value)) :
    Refines (resolveEntriesIn settings direction before entries)
      (resolveEntriesIn settings.relaxed direction before entries) := by
  induction entries generalizing before with
  | nil => exact .refl _
  | cons entry rest ih =>
      refine .bind (.refl _) fun name => ?_
      exact .bind (refines_resolve settings direction name _) fun _ => ih _

/-- The counterpart of a set depends on the resolution and on flipping only. -/
lemma withCounterpart_relaxed (s : DeclarationSet) :
    withCounterpartIn (m := Outcome) settings.relaxed s = withCounterpartIn settings s := by
  have hfirst : ∀ ds, firstSensitive? settings.relaxed ds = firstSensitive? settings ds := by
    intro ds
    induction ds with
    | nil => rfl
    | cons d ds ih => rw [firstSensitive?, firstSensitive?, ih]; rfl
  rw [withCounterpartIn, withCounterpartIn, hfirst]
  rfl

/-- **A class rule does not depend on strict checking.** -/
theorem refines_compileBlock (context : Context) (style : Value) :
    Refines (compileBlock settings context style)
      (compileBlock settings.relaxed context style) := by
  refine .bind (.refl _) fun entries => .bind (.refl _) fun _ => .bind (.refl _) fun _ => ?_
  refine .bind (refines_resolveEntries settings .ltr {} entries) fun s => ?_
  rw [withCounterpart_relaxed]
  exact .refl _

/-! ## Keyframes -/

lemma refines_atSelector {α : Type} (selector : String) {x y : Outcome α} (h : Refines x y) :
    Refines (atSelector selector x) (atSelector selector y) := by
  intro a ha
  cases x with
  | error failure => cases ha
  | ok b =>
      rw [h b rfl]
      exact ha

lemma refines_resolveFrame (selector : String) (frame : Value) :
    Refines (resolveFrameIn settings selector frame)
      (resolveFrameIn settings.relaxed selector frame) := by
  cases frame with
  | map entries =>
      refine refines_atSelector selector (.bind (.refl _) fun _ => ?_)
      exact refines_resolveEntries settings .ltr {} entries
  | _ => exact .refl _

lemma refines_compileFrames (seen : List String) (entries : List (Key × Value)) :
    Refines (compileFramesIn settings seen entries)
      (compileFramesIn settings.relaxed seen entries) := by
  induction entries generalizing seen with
  | nil => exact .refl _
  | cons entry rest ih =>
      refine .bind (.bind (.refl _) fun selector => ?_) fun frame => ?_
      · refine .bind (refines_resolveFrame settings selector _) fun resolved => ?_
        rw [withCounterpart_relaxed]
        exact .refl _
      · exact .bind (ih _) fun _ => .refl _

/-- **A keyframes rule does not depend on strict checking.** -/
theorem refines_compileKeyframes (definition : Value) :
    Refines (compileKeyframes settings definition)
      (compileKeyframes settings.relaxed definition) := by
  refine .bind (.refl _) fun entries => ?_
  exact .bind (refines_compileFrames settings [] entries) fun _ => .refl _

/-! ## Documents -/

lemma compilesUpTo_relaxed : CompilesUpTo Eq settings settings.relaxed where
  identifier _ _ h := congrArg Rule.identifier h
  block context style := refinesUpTo_eq_iff.mpr (refines_compileBlock settings context style)
  keyframes definition := refinesUpTo_eq_iff.mpr (refines_compileKeyframes settings definition)

/-- **A compiled document does not depend on strict checking.** -/
theorem refines_compileDocument (document : List (Key × Value)) :
    Refines (compileDocument settings document) (compileDocument settings.relaxed document) := by
  intro b hb
  have hdocument := (compilesUpTo_relaxed settings).refinesUpTo_compileDocument document
  obtain ⟨b', hb', hrelated⟩ := hdocument b hb
  rw [hrelated.eq]
  exact hb'

end

/-! ## Strict checking -/

/-- **Strict checking only refuses.**  Whatever compiles, be it a flat style under a context, a
keyframes definition or a document, compiles to the same rule or bundle without strict checking. -/
theorem compile_relaxed_of_compile (settings : Settings) :
    (∀ context style rule, compileBlock settings context style = .ok rule →
        compileBlock settings.relaxed context style = .ok rule) ∧
      (∀ definition rule, compileKeyframes settings definition = .ok rule →
        compileKeyframes settings.relaxed definition = .ok rule) ∧
      ∀ document b, compileDocument settings document = .ok b →
        compileDocument settings.relaxed document = .ok b :=
  ⟨refines_compileBlock settings, refines_compileKeyframes settings,
    refines_compileDocument settings⟩

/-- A length, a frame and a document that pass both checks. -/
theorem compile_relaxed_of_known :
    ∃ (rule frames : Rule) (b : Bundle),
      compileBlock { resolution := .physical, strictValues := true, strictProperties := true } {}
          (.map [(.text "marginStart", .text "1px")]) = .ok rule ∧
        compileBlock { resolution := .physical } {}
          (.map [(.text "marginStart", .text "1px")]) = .ok rule ∧
        compileKeyframes
          { resolution := .physical, strictValues := true, strictProperties := true }
          (.map [(.text "from", .map [(.text "opacity", .int 0)])]) = .ok frames ∧
        compileKeyframes { resolution := .physical }
          (.map [(.text "from", .map [(.text "opacity", .int 0)])]) = .ok frames ∧
        compileDocument
          { resolution := .physical, strictValues := true, strictProperties := true }
          [(.text "styles", .map [(.text "box", .map [(.text "gap", .int 4)])])] = .ok b ∧
        compileDocument { resolution := .physical }
          [(.text "styles", .map [(.text "box", .map [(.text "gap", .int 4)])])] = .ok b := by
  obtain ⟨hblock, hframes, hdocument⟩ := compile_relaxed_of_compile
    { resolution := .physical, strictValues := true, strictProperties := true }
  have hrun : (do
      let rule ← compileBlock
        { resolution := .physical, strictValues := true, strictProperties := true } {}
        (.map [(.text "marginStart", .text "1px")])
      let frames ← compileKeyframes
        { resolution := .physical, strictValues := true, strictProperties := true }
        (.map [(.text "from", .map [(.text "opacity", .int 0)])])
      let b ← compileDocument
        { resolution := .physical, strictValues := true, strictProperties := true }
        [(.text "styles", .map [(.text "box", .map [(.text "gap", .int 4)])])]
      pure (rule.priority, frames.priority, b.ruleCount) : Outcome (Int × Int × Nat)) =
      .ok (0, 1, 1) := eq_ok_of_toOption (by decide +kernel)
  simp only [bind_eq_ok] at hrun
  obtain ⟨rule, hrule, frames, hrules, b, hb, _⟩ := hrun
  exact ⟨rule, frames, b, hrule, hblock _ _ _ hrule, hrules, hframes _ _ hrules, hb,
    hdocument _ _ hb⟩

/-- The converse does not hold: an unknown name compiles without strict checking only. -/
example :
    (compileBlock { strictProperties := true } {} (.map [(.text "hue", .int 7)])).isOk = false ∧
      (compileBlock {} {} (.map [(.text "hue", .int 7)])).isOk = true := by
  decide +kernel

end AtomicStyle
