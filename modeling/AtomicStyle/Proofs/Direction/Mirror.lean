import AtomicStyle.Proofs.Direction.Turning

/-!
# The mirror of a style and the style mirrored

There are two ways to get a style for right-to-left text.  The compiler *mirrors*: it takes the
counterpart of the set that the style resolves to for left-to-right text.  One may also resolve
the style for right-to-left text and flip its values.  This file compares what the two give each
property.

**The style as written.**  Resolving for the other direction and flipping gives a property what
the counterparts of the written declarations give it (`lastValue?_flipAll`).  Nothing of the style
is lost there, since the merging of the right-to-left set keeps the last declaration of each
property.

**The merged set.**  The mirror gives a property what the counterparts of the *merged*
declarations give it (`lastValue?_of_counterpart`).  The counterpart has as many declarations as
the set, in the same order, so a declaration that lost its place for left-to-right text is
missing, and one that kept its place stands there, even if it was written later.

**Where the two agree.**  `lastValue?_counterpart_iff` compares them property by property.  They
agree on all properties if sharing a property is the same for both directions, as it is under
logical resolution.
-/

namespace AtomicStyle

open Css Property

variable {settings : Settings}

/-! ## The last declaration wins -/

/-- The value that declarations give a property: that of the last one for it. -/
def lastValue? (ds : List Declaration) (property : String) : Option String :=
  (lastFor? Declaration.property property ds).map Declaration.value

/-- The last of some declarations that is turned to a property. -/
def lastTurned? (settings : Settings) (ds : List Declaration) (property : String) :
    Option Declaration :=
  lastFor? (fun d => (turned settings d).property) property ds

/-- The value of the counterpart of a declaration. -/
def counterpartValue? (settings : Settings) (d : Declaration) : Option String :=
  (counterpartDeclaration settings d).toOption.map Declaration.value

/-- The value that the counterparts of declarations give a property. -/
def mirroredValue? (settings : Settings) (ds : List Declaration) (property : String) :
    Option String :=
  (lastTurned? settings ds property).bind (counterpartValue? settings)

/-- The declarations of a set, with each value flipped as far as the settings ask for it. -/
def flipAll (settings : Settings) (s : DeclarationSet) : Outcome (List Declaration) :=
  s.declarations.mapM fun d => do
    let value ← settings.flip d.property d.value.toList
    pure { d with value := String.ofList value }

lemma counterpartValue?_of_eq_ok {d e : Declaration}
    (h : counterpartDeclaration settings d = .ok e) :
    counterpartValue? settings d = some e.value := by
  rw [counterpartValue?, h]
  rfl

/-- Turning and flipping give the value of the counterpart. -/
lemma counterpartValue?_of_flip {d e : Declaration} {value : List Char}
    (hproperty : (turned settings d).property = e.property)
    (hvalue : (turned settings d).value = e.value)
    (hflip : settings.flip e.property e.value.toList = .ok value) :
    counterpartValue? settings d = some (String.ofList value) := by
  rw [← hproperty, ← hvalue] at hflip
  have hd := counterpartDeclaration_eq_ok.mpr ⟨value, hflip, rfl⟩
  rw [counterpartValue?_of_eq_ok hd]

/-! ## The two ways -/

/-- **The mirror gives a property what the counterparts of the merged declarations give it.** -/
theorem lastValue?_of_counterpart {s m : DeclarationSet} (h : counterpart settings s = .ok m)
    (property : String) :
    lastValue? m.declarations property = mirroredValue? settings s.declarations property := by
  have hkey : ∀ d e, counterpartDeclaration settings d = .ok e →
      (turned settings d).property = e.property := by
    intro d e hde
    obtain ⟨value, _, rfl⟩ := counterpartDeclaration_eq_ok.mp hde
    rfl
  exact map_eq_bind_of_rel (fun _ _ hde => counterpartValue?_of_eq_ok hde)
    (lastFor?_rel hkey (forall₂_counterpart h) property)

/-- The written declarations for the two directions match by turning. -/
lemma forall₂_turned_of_written {style : Value} {ds es : List Declaration}
    (hds : writtenDeclarations settings .ltr style = .ok ds)
    (hes : writtenDeclarations settings .rtl style = .ok es) :
    List.Forall₂ (fun d e => (turned settings d).property = e.property ∧
      (turned settings d).value = e.value) ds es := by
  obtain ⟨entries, hentries, longhands, hlonghands, hds⟩ := writtenDeclarations_eq_ok.mp hds
  obtain ⟨entries', hentries', longhands', hlonghands', hes⟩ := writtenDeclarations_eq_ok.mp hes
  obtain rfl : entries = entries' := Except.ok.inj (hentries.symm.trans hentries')
  obtain rfl : longhands = longhands' := Except.ok.inj (hlonghands.symm.trans hlonghands')
  refine forall₂_of_common ?_ hds hes
  intro l d e hd he
  exact turned_of_resolvesTo hd he

/-- Flipping a set matches it declaration by declaration. -/
lemma forall₂_flipAll {s : DeclarationSet} {f : List Declaration}
    (h : flipAll settings s = .ok f) :
    List.Forall₂ (fun e g : Declaration => e.property = g.property ∧
      ∃ value, settings.flip e.property e.value.toList = .ok value ∧
        String.ofList value = g.value) s.declarations f := by
  refine (mapM_eq_ok.mp h).imp fun e g heg => ?_
  obtain ⟨value, hvalue, hg⟩ := bind_eq_ok.mp heg
  obtain rfl := pure_eq_ok.mp hg
  exact ⟨rfl, value, hvalue, rfl⟩

/-- **Resolving for the other direction gives a property what the counterparts of the written
declarations give it.** -/
theorem lastValue?_flipAll {style : Value} {ds f : List Declaration} {r : DeclarationSet}
    (hds : writtenDeclarations settings .ltr style = .ok ds)
    (hr : resolveStyle settings .rtl style = .ok r) (hf : flipAll settings r = .ok f)
    (property : String) : lastValue? f property = mirroredValue? settings ds property := by
  obtain ⟨es, hes, rfl⟩ := resolveStyle_eq_ok.mp hr
  have hturned := lastFor?_rel (fun _ _ h => h.1) (forall₂_turned_of_written hds hes) property
  have hflipped := lastFor?_rel (fun _ _ h => h.1) (forall₂_flipAll hf) property
  rw [DeclarationSet.declarations_ofList, lastFor?_placeAll] at hflipped
  refine map_eq_bind_of_rel (R := fun d g => counterpartValue? settings d = some g.value)
    (fun _ _ h => h) (rel_comp ?_ hturned hflipped)
  rintro d e g ⟨hproperty, hvalue⟩ ⟨_, value, hflip, hg⟩
  rw [counterpartValue?_of_flip hproperty hvalue hflip, hg]

/-! ## Where the two agree -/

/-- Where sharing a property is the same for both directions, merging keeps what matters. -/
lemma lastTurned?_ofList {ds : List Declaration}
    (h : ∀ d ∈ ds, ∀ e ∈ ds, d.property = e.property ↔
      (turned settings d).property = (turned settings e).property) (property : String) :
    lastTurned? settings (DeclarationSet.ofList ds).declarations property =
      lastTurned? settings ds property := by
  cases hlast : lastTurned? settings ds property with
  | none =>
      rw [lastTurned?, lastFor?_eq_none_iff] at hlast ⊢
      intro d hd
      exact hlast d (mem_written_of_mem hd)
  | some d =>
      have hd : d ∈ ds := mem_of_lastFor? hlast
      -- to be turned to the property is to have the property of `d`, which merging respects
      have hkey : ∀ e ∈ ds, (turned settings e).property = property ↔
          e.property = d.property := by
        intro e he
        rw [h e he d hd, key_of_lastFor? hlast]
      have hmerged : ∀ e ∈ (DeclarationSet.ofList ds).declarations,
          (turned settings e).property = property ↔ e.property = d.property :=
        fun e he => hkey e (mem_written_of_mem he)
      rw [← hlast, lastTurned?, lastTurned?, lastFor?_congr hmerged, lastFor?_congr hkey,
        DeclarationSet.declarations_ofList, lastFor?_placeAll]

lemma property_turned_of_logical (h : settings.resolution = .logical) {style : Value}
    {ds : List Declaration} (hds : writtenDeclarations settings .ltr style = .ok ds)
    {d : Declaration} (hd : d ∈ ds) : (turned settings d).property = d.property := by
  exact (turned_of_logical h (resolved_of_mem_written hds hd)).1

/-- **Where the mirror realises the style for right-to-left text.**  The two give a property the
same value exactly when the last of the merged declarations that is turned to it has the
counterpart value of the last of the written ones.  They agree on every property when sharing a
property is the same for both directions, and so under logical resolution. -/
theorem lastValue?_counterpart_iff {style : Value} {s r m : DeclarationSet}
    {f : List Declaration} (hs : resolveStyle settings .ltr style = .ok s)
    (hr : resolveStyle settings .rtl style = .ok r) (hm : counterpart settings s = .ok m)
    (hf : flipAll settings r = .ok f) :
    ∃ ds, writtenDeclarations settings .ltr style = .ok ds ∧
      (∀ property, lastValue? m.declarations property = lastValue? f property ↔
        mirroredValue? settings s.declarations property = mirroredValue? settings ds property) ∧
      ((∀ d ∈ ds, ∀ e ∈ ds, d.property = e.property ↔
          (turned settings d).property = (turned settings e).property) →
        ∀ property, lastValue? m.declarations property = lastValue? f property) ∧
      (settings.resolution = .logical →
        ∀ property, lastValue? m.declarations property = lastValue? f property) := by
  obtain ⟨ds, hds, rfl⟩ := resolveStyle_eq_ok.mp hs
  have hshared : (∀ d ∈ ds, ∀ e ∈ ds, d.property = e.property ↔
      (turned settings d).property = (turned settings e).property) →
      ∀ property, lastValue? m.declarations property = lastValue? f property := by
    intro h property
    rw [lastValue?_of_counterpart hm, lastValue?_flipAll hds hr hf, mirroredValue?,
      mirroredValue?, lastTurned?_ofList h]
  refine ⟨ds, hds, fun property => ?_, hshared, fun hlogical => hshared fun d hd e he => ?_⟩
  · rw [lastValue?_of_counterpart hm, lastValue?_flipAll hds hr hf]
  · rw [property_turned_of_logical hlogical hds hd, property_turned_of_logical hlogical hds he]

/-- Two names of one edge share their property in both directions, so merging loses nothing. -/
theorem lastValue?_counterpart_of_shared :
    ∃ (s r m : DeclarationSet) (f : List Declaration),
      resolveStyle { resolution := .physical } .ltr
          (.map [(.text "start", .text "1px"), (.text "end", .text "2px"),
            (.text "inset-inline-start", .text "3px")]) = .ok s ∧
        resolveStyle { resolution := .physical } .rtl
          (.map [(.text "start", .text "1px"), (.text "end", .text "2px"),
            (.text "inset-inline-start", .text "3px")]) = .ok r ∧
        counterpart { resolution := .physical } s = .ok m ∧
        flipAll { resolution := .physical } r = .ok f ∧
        m.items = [("right", "3px"), ("left", "2px")] ∧
        ∀ property, lastValue? m.declarations property = lastValue? f property := by
  have hrun : (do
      let s ← resolveStyle { resolution := .physical } .ltr
        (.map [(.text "start", .text "1px"), (.text "end", .text "2px"),
          (.text "inset-inline-start", .text "3px")])
      let r ← resolveStyle { resolution := .physical } .rtl
        (.map [(.text "start", .text "1px"), (.text "end", .text "2px"),
          (.text "inset-inline-start", .text "3px")])
      let m ← counterpart { resolution := .physical } s
      let f ← flipAll { resolution := .physical } r
      let ds ← writtenDeclarations { resolution := .physical } .ltr
        (.map [(.text "start", .text "1px"), (.text "end", .text "2px"),
          (.text "inset-inline-start", .text "3px")])
      pure (f, m.items, decide (∀ d ∈ ds, ∀ e ∈ ds, d.property = e.property ↔
        (turned { resolution := .physical } d).property =
          (turned { resolution := .physical } e).property)) :
        Outcome (List Declaration × List (String × String) × Bool)) =
      .ok ([⟨"right", "3px", "inset-inline-start", none⟩, ⟨"left", "2px", "end", none⟩],
        [("right", "3px"), ("left", "2px")], true) :=
    eq_ok_of_toOption (by decide +kernel)
  simp only [bind_eq_ok, pure_eq_ok, Prod.mk.injEq, decide_eq_true_eq] at hrun
  obtain ⟨s, hs, r, hr, m, hm, f, hf, ds, hds, _, hitems, hshared⟩ := hrun
  obtain ⟨ds', hds', _, hagree, _⟩ := lastValue?_counterpart_iff hs hr hm hf
  obtain rfl := Except.ok.inj (hds.symm.trans hds')
  exact ⟨s, r, m, f, hs, hr, hm, hf, hitems, hagree hshared⟩

/-- A physical name behind a logical one of the same edge takes its place for left-to-right text,
but not for right-to-left text: the mirror has lost the other edge. -/
theorem lastValue?_counterpart_ne :
    ∃ (s r m : DeclarationSet) (f : List Declaration),
      resolveStyle { resolution := .physical } .ltr
          (.map [(.text "start", .text "1px"), (.text "left", .text "2px")]) = .ok s ∧
        resolveStyle { resolution := .physical } .rtl
          (.map [(.text "start", .text "1px"), (.text "left", .text "2px")]) = .ok r ∧
        counterpart { resolution := .physical } s = .ok m ∧
        flipAll { resolution := .physical } r = .ok f ∧
        lastValue? m.declarations "right" ≠ lastValue? f "right" := by
  have hrun : (do
      let s ← resolveStyle { resolution := .physical } .ltr
        (.map [(.text "start", .text "1px"), (.text "left", .text "2px")])
      let r ← resolveStyle { resolution := .physical } .rtl
        (.map [(.text "start", .text "1px"), (.text "left", .text "2px")])
      let m ← counterpart { resolution := .physical } s
      let f ← flipAll { resolution := .physical } r
      pure (lastValue? m.declarations "right", lastValue? f "right") :
        Outcome (Option String × Option String)) = .ok (none, some "1px") :=
    eq_ok_of_toOption (by decide +kernel)
  simp only [bind_eq_ok, pure_eq_ok, Prod.mk.injEq] at hrun
  obtain ⟨s, hs, r, hr, m, hm, f, hf, hmirror, hstyle⟩ := hrun
  refine ⟨s, r, m, f, hs, hr, hm, hf, ?_⟩
  rw [hmirror, hstyle]
  simp

end AtomicStyle
