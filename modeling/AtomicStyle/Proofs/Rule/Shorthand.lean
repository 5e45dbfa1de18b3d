import AtomicStyle.Proofs.Css.Recovery
import AtomicStyle.Proofs.Rule.Spelling

/-!
# The spellings of a shorthand

A shorthand gets by with fewer components than it has longhands: a side that is not given takes after
the one across from it.  So the same sides can be written with more components or with fewer.

**Values.**  A value is written as parts with spaces between, and an importance mark or nothing
behind (`written`).  If each part is closed and holds neither a slash nor an exclamation mark, the
parts are what is dealt out, and the mark is put behind each of them (`expand_written`).

**Spellings.**  `ShorthandKind.spellings` lists what the longhands can get with all the ways to say
it.  All ways are expanded to the same longhands with the same values, and a style may use one for
another anywhere without a change to its rule (`expand_eq_of_spellings`).
-/

namespace AtomicStyle

open Css Property Text Compiling

/-! ## Marks behind a body -/

namespace Css

/-- The text is an importance mark, or nothing. -/
def IsOptionalMark (text : List Char) : Prop :=
  text = [] ∨ isMark text = true

/-- The mark behind a solid text without exclamation marks is what is cut off from both together,
also when blanks at the ends are removed first. -/
lemma splitImportance_trim_append {body mark : List Char} (hbody : Solid body) (hbang : '!' ∉ body)
    (hmark : IsOptionalMark mark) :
    splitImportance (trim (body ++ mark)) = (body, isMark mark) := by
  rcases hmark with rfl | hmark
  · rw [List.append_nil, hbody.trim_eq, splitImportance_of_not_mem hbang]
    rfl
  · obtain ⟨core, trail, rfl, hcore, hend, htrail⟩ := exists_append_of_isMark hmark
    have hne : core ≠ [] := by
      rintro rfl
      exact absurd hcore (by decide)
    have hstart : startsBlank (body ++ (core ++ trail)) = false :=
      (startsBlank_append hbody.ne_nil _).trans hbody.startsBlank
    rw [trim, trimStart_eq_self hstart, ← List.append_assoc, trimEnd_append_of_forall _ htrail,
      trimEnd_eq_self ((endsBlank_append hne body).trans hend), hmark,
      splitImportance_append hcore hbody.endsBlank]

end Css

/-! ## Values -/

namespace Property

/-- A text that may be given to a longhand as it is: closed, without a slash and an exclamation
mark. -/
structure IsPart (text : List Char) : Prop where
  closed : IsClosed text
  slash : '/' ∉ text
  bang : '!' ∉ text

instance (text : List Char) : Decidable (IsPart text) :=
  decidable_of_iff (IsClosed text ∧ '/' ∉ text ∧ '!' ∉ text)
    ⟨fun ⟨h₁, h₂, h₃⟩ => ⟨h₁, h₂, h₃⟩, fun h => ⟨h.closed, h.slash, h.bang⟩⟩

/-- The value of the parts with spaces between and an importance mark, or nothing, behind. -/
def written (parts : List (List Char)) (mark : List Char) : String :=
  String.ofList (joinWith ' ' parts ++ mark)

/-- The longhands of a shorthand, each with its side. -/
def Shorthand.dealt (s : Shorthand) (sides : List (List Char)) (important : Bool) :
    List (String × Value) :=
  (s.longhands.zip sides).map fun (longhand, side) =>
    (longhand, .text (String.ofList (attachImportance side important)))

end Property

/-- **The parts that a value is written as are dealt out**, each with the mark of the whole. -/
theorem expand_written {property : String} {s : Shorthand} (hs : shorthand? property = some s)
    {parts : List (List Char)} (hparts : ∀ p ∈ parts, IsPart p) (hne : parts ≠ [])
    {mark : List Char} (hmark : IsOptionalMark mark) {layout : List Nat}
    (hlayout : s.layout? parts.length = some layout) :
    expand property (.text (written parts mark)) =
      s.dealt (layout.map fun i => parts.getD i []) (isMark mark) := by
  have hsolid : Solid (joinWith ' ' parts) :=
    solid_joinWith hne fun p hp => (isClosed_iff.mp (hparts p hp).closed).1
  have hbang : '!' ∉ joinWith ' ' parts :=
    not_mem_joinWith (by decide) fun p hp => (hparts p hp).bang
  have hslash : '/' ∉ joinWith ' ' parts :=
    not_mem_joinWith (by decide) fun p hp => (hparts p hp).slash
  have hsplit : splitImportance (trim (written parts mark).toList) =
      (joinWith ' ' parts, isMark mark) := by
    rw [written, String.toList_ofList, splitImportance_trim_append hsolid hbang hmark]
  have hbody : bodyOf (written parts mark) = joinWith ' ' parts := congrArg Prod.fst hsplit
  have hcomponents : components [' '] (bodyOf (written parts mark)) = parts := by
    rw [hbody, components_joinWith_of_closed fun p hp => (hparts p hp).closed]
  have hdealt : dealOut? s (written parts mark) =
      some (s.dealt (layout.map fun i => parts.getD i []) (isMark mark)) := by
    rw [dealOut?_of_not_mem (hbody ▸ hslash), hcomponents, hlayout, hsplit, Option.map_some,
      Shorthand.dealt, List.zip_map_right, List.map_map]
    rfl
  simp only [expand, hs, hdealt, Option.getD_some]

/-! ## Spellings -/

namespace Property

/-- What the longhands of a shorthand can get, with all the ways to write it. -/
def ShorthandKind.spellings (kind : ShorthandKind) (a b c : List Char) :
    List (List (List Char) × List (List (List Char))) :=
  match kind with
  | .box => [
      ([a, a, a, a], [[a], [a, a], [a, a, a], [a, a, a, a]]),
      ([a, b, a, b], [[a, b], [a, b, a], [a, b, a, b]]),
      ([a, b, c, b], [[a, b, c], [a, b, c, b]])]
  | .pair => [([a, a], [[a], [a, a]])]

/-- Each way is dealt out to the sides that it is listed for. -/
lemma exists_layout_of_mem_spellings {s : Shorthand} {a b c : List Char}
    {sides : List (List Char)} {ways : List (List (List Char))}
    (h : (sides, ways) ∈ s.kind.spellings a b c) {way : List (List Char)} (hway : way ∈ ways) :
    way ≠ [] ∧ way ⊆ [a, b, c] ∧ ∃ layout, s.layout? way.length = some layout ∧
      layout.map (fun i => way.getD i []) = sides := by
  obtain ⟨kind, longhands⟩ := s
  cases kind with
  | box =>
      simp only [ShorthandKind.spellings, List.mem_cons, Prod.mk.injEq, List.not_mem_nil,
        or_false] at h
      rcases h with ⟨rfl, rfl⟩ | ⟨rfl, rfl⟩ | ⟨rfl, rfl⟩ <;>
        simp only [List.mem_cons, List.not_mem_nil, or_false] at hway
      · rcases hway with rfl | rfl | rfl | rfl <;> simp [Shorthand.layout?]
      · rcases hway with rfl | rfl | rfl <;> simp [Shorthand.layout?]
      · rcases hway with rfl | rfl <;> simp [Shorthand.layout?]
  | pair =>
      simp only [ShorthandKind.spellings, List.mem_singleton, Prod.mk.injEq] at h
      obtain ⟨rfl, rfl⟩ := h
      simp only [List.mem_cons, List.not_mem_nil, or_false] at hway
      rcases hway with rfl | rfl <;> simp [Shorthand.layout?]

end Property

/-! ## Rules -/

section

variable {settings : Settings} {name : String} {v w : Value} {front back : List (Key × Value)}

/-- The values of a known property are resolved alike if they are expanded alike. -/
lemma resolve_congr {direction : Direction} (hknown : isKnown (dashed name) = true)
    (h : expand (dashed name) v = expand (dashed name) w) :
    resolve settings direction name v = resolve settings direction name w := by
  have hcheck : ∀ value, checkKnown settings name value = .ok () := fun value => by
    simp [checkKnown, hknown]
  rw [resolve_eq, resolve_eq, hcheck, hcheck, h]

lemma resolveEntries_congr {direction : Direction}
    (h : resolve settings direction name v = resolve settings direction name w)
    (before : DeclarationSet) :
    resolveEntriesIn (m := Outcome) settings direction before
        (front ++ (.text name, v) :: back) =
      resolveEntriesIn settings direction before (front ++ (.text name, w) :: back) := by
  induction front generalizing before with
  | nil =>
      exact congrArg (fun resolved => resolved >>= fun resolved =>
        resolveEntriesIn settings direction (before.extend resolved) back) h
  | cons entry front ih => simp only [List.cons_append, resolveEntriesIn, ih]

/-- The scalars of a style are found no matter which they are. -/
lemma checkScalars_append_text {key : Key} (t u : String) :
    checkScalars (front ++ (key, .text t) :: back) =
      checkScalars (front ++ (key, .text u) :: back) := by
  induction front with
  | nil => rfl
  | cons entry front ih =>
      obtain ⟨key, value⟩ := entry
      simp only [List.cons_append, checkScalars, ih]

/-- **One value may stand for another that is expanded alike**, anywhere in a style. -/
theorem compileBlock_congr {t u : String} (hknown : isKnown (dashed name) = true)
    (h : expand (dashed name) (.text t) = expand (dashed name) (.text u)) (context : Context) :
    compileBlock settings context (.map (front ++ (.text name, .text t) :: back)) =
      compileBlock settings context (.map (front ++ (.text name, .text u) :: back)) := by
  have hentries : ∀ entry : Key × Value,
      styleEntries (.map (front ++ entry :: back)) = .ok (front ++ entry :: back) := by
    intro entry
    cases front <;> rfl
  rw [compileBlock, compileBlock, compileBlockIn, compileBlockIn, hentries, hentries]
  simp only [bind, Except.bind, step_outcome, checkScalars_append_text t u,
    resolveEntries_congr (resolve_congr hknown h)]

end

/-- **The spellings of a shorthand coincide**: whichever way the sides are written, and however the
mark behind them is spelled, the longhands get the same values, and a style that uses one way for
another is compiled alike. -/
theorem expand_eq_of_spellings {property : String} {s : Shorthand}
    (hs : shorthand? property = some s) {a b c : List Char} (ha : IsPart a) (hb : IsPart b)
    (hc : IsPart c) {sides : List (List Char)} {ways : List (List (List Char))}
    (hways : (sides, ways) ∈ s.kind.spellings a b c) {ps qs : List (List Char)} (hps : ps ∈ ways)
    (hqs : qs ∈ ways) {mark mark' : List Char} (hmark : IsOptionalMark mark)
    (hmark' : IsOptionalMark mark') (hsame : isMark mark = isMark mark') :
    expand property (.text (written ps mark)) = s.dealt sides (isMark mark) ∧
      expand property (.text (written qs mark')) = s.dealt sides (isMark mark) ∧
      ∀ settings context name front back, dashed name = property →
        compileBlock settings context
            (.map (front ++ (.text name, .text (written ps mark)) :: back)) =
          compileBlock settings context
            (.map (front ++ (.text name, .text (written qs mark')) :: back)) := by
  have hpart : ∀ p ∈ [a, b, c], IsPart p := by simp [ha, hb, hc]
  have hexpand : ∀ way ∈ ways, ∀ {mark}, IsOptionalMark mark →
      expand property (.text (written way mark)) = s.dealt sides (isMark mark) := by
    intro way hway mark hmark
    obtain ⟨hne, hsub, layout, hlayout, rfl⟩ := exists_layout_of_mem_spellings hways hway
    exact expand_written hs (fun p hp => hpart p (hsub hp)) hne hmark hlayout
  have hps := hexpand ps hps hmark
  have hqs := hsame ▸ hexpand qs hqs hmark'
  refine ⟨hps, hqs, ?_⟩
  rintro settings context name front back rfl
  have hknown : isKnown (dashed name) = true := by simp [isKnown, hs]
  exact compileBlock_congr hknown (hps.trans hqs.symm) context

/-- Three components and four are one margin, with two spellings of the mark. -/
theorem expand_eq_of_three_and_four :
    IsPart "calc(1px + 2px)".toList ∧ IsPart "var(--x, 'y z')".toList ∧ IsPart "auto".toList ∧
      expand "margin" (.text "calc(1px + 2px) var(--x, 'y z') auto!important") =
        [("margin-top", .text "calc(1px + 2px) !important"),
          ("margin-right", .text "var(--x, 'y z') !important"),
          ("margin-bottom", .text "auto !important"),
          ("margin-left", .text "var(--x, 'y z') !important")] ∧
      expand "margin" (.text "calc(1px + 2px) var(--x, 'y z') auto var(--x, 'y z') ! IMPORTANT") =
        expand "margin" (.text "calc(1px + 2px) var(--x, 'y z') auto!important") ∧
      compileBlock {} { pseudos := [":hover"] }
          (.map [(.text "color", .text "red"),
            (.text "margin", .text "calc(1px + 2px) var(--x, 'y z') auto!important")]) =
        compileBlock {} { pseudos := [":hover"] }
          (.map [(.text "color", .text "red"), (.text "margin",
            .text "calc(1px + 2px) var(--x, 'y z') auto var(--x, 'y z') ! IMPORTANT")]) := by
  have hs : shorthand? "margin" = some (boxSides "margin-" "") := by decide +kernel
  have ha : IsPart "calc(1px + 2px)".toList := by decide +kernel
  have hb : IsPart "var(--x, 'y z')".toList := by decide +kernel
  have hc : IsPart "auto".toList := by decide +kernel
  have hmark : IsOptionalMark "!important".toList := Or.inr (by decide +kernel)
  have hmark' : IsOptionalMark " ! IMPORTANT".toList := Or.inr (by decide +kernel)
  have hways : (_, _) ∈ (boxSides "margin-" "").kind.spellings "calc(1px + 2px)".toList
      "var(--x, 'y z')".toList "auto".toList := List.mem_of_getElem? (i := 2) rfl
  obtain ⟨hthree, hfour, hrule⟩ := expand_eq_of_spellings hs ha hb hc hways
    List.mem_cons_self (List.mem_cons_of_mem _ List.mem_cons_self) hmark hmark' (by decide +kernel)
  refine ⟨ha, hb, hc, ?_, ?_, ?_⟩
  · exact hthree
  · exact hfour.trans hthree.symm
  · exact hrule {} { pseudos := [":hover"] } "margin" [(.text "color", .text "red")] []
      (by decide +kernel)

end AtomicStyle
