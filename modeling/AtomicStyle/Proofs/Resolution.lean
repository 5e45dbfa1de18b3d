import AtomicStyle.Proofs.Matching
import AtomicStyle.Proofs.Merging
import AtomicStyle.Proofs.Outcome
import AtomicStyle.Proofs.Property.ValueText
import AtomicStyle.Proofs.Property.Tables
import AtomicStyle.Resolve

/-!
# What a style resolves to

A style is resolved entry by entry, and each entry is merged into what was resolved before.  This
file separates the three things that happen there.

**Naming.**  `longhandsOf` gives the longhands of a style with their values.  Neither the
direction nor any merging has a part in it.

**Rendering.**  `writtenDeclarations` resolves each longhand for a direction, and keeps all of
them.  A declaration that comes out knows where it came from: `Declaration.Resolved` says that its
property and value are what its origin and its source value give for the direction.

**Merging.**  What a style resolves to is the merged list of what is written
(`resolveStyle_eq_ok`), so it is among the written declarations (`mem_written_of_mem`).
-/

namespace AtomicStyle

open Css Property Compiling

/-! ## Naming -/

/-- The longhands of the entries of a style with their values, in order. -/
def longhandsOf (settings : Settings) : List (Key × Value) → Outcome (List (String × Value))
  | [] => .ok []
  | (key, value) :: rest => do
    let name ← propertyKey key
    checkKnown settings name value
    let others ← longhandsOf settings rest
    pure (expand (dashed name) value ++ others)

lemma longhandsOf_cons_eq_ok {settings : Settings} {key : Key} {value : Value}
    {rest : List (Key × Value)} {longhands : List (String × Value)} :
    longhandsOf settings ((key, value) :: rest) = .ok longhands ↔
      ∃ name, propertyKey key = .ok name ∧ checkKnown settings name value = .ok () ∧
        ∃ others, longhandsOf settings rest = .ok others ∧
          expand (dashed name) value ++ others = longhands := by
  simp only [longhandsOf, bind_eq_ok, pure_eq_ok, exists_unit]

/-- Each longhand comes from an entry whose key is a text that the settings admit. -/
lemma exists_of_mem_longhandsOf {settings : Settings} {entries : List (Key × Value)}
    {longhands : List (String × Value)} (h : longhandsOf settings entries = .ok longhands)
    {l : String × Value} (hl : l ∈ longhands) :
    ∃ name value, (Key.text name, value) ∈ entries ∧ checkKnown settings name value = .ok () ∧
      l ∈ expand (dashed name) value := by
  induction entries generalizing longhands with
  | nil =>
      obtain rfl := Except.ok.inj h
      simp at hl
  | cons entry rest ih =>
      obtain ⟨key, value⟩ := entry
      obtain ⟨name, hkey, hknown, others, hothers, rfl⟩ := longhandsOf_cons_eq_ok.mp h
      rcases List.mem_append.mp hl with hl | hl
      · cases key with
        | text s =>
            obtain rfl := Except.ok.inj hkey
            exact ⟨s, value, List.mem_cons_self, hknown, hl⟩
        | number n => exact absurd hkey (fault_ne_ok _ _)
      · obtain ⟨name', value', hmem, hl⟩ := ih hothers hl
        exact ⟨name', value', List.mem_cons_of_mem _ hmem, hl⟩

/-- Only a mapping has entries. -/
lemma eq_map_of_entriesOf {v : Value} {entries : List (Key × Value)}
    (h : entriesOf v = .ok entries) : v = .map entries := by
  cases v with
  | map entries => exact congrArg Value.map (Except.ok.inj h)
  | _ => exact absurd h (fault_ne_ok _ _)

/-! ## Rendering -/

section

variable {settings : Settings} {direction : Direction}

lemma render_mem_renderings (settings : Settings) (direction : Direction) (l : Logical) :
    settings.render direction l ∈ l.renderings := by
  unfold Settings.render
  cases settings.isPhysical <;> cases direction <;> simp [Logical.renderings, Logical.physical]

lemma physicalName_eq_render {longhand : String} {l : Logical} (h : logical? longhand = some l) :
    physicalName settings direction longhand = settings.render direction l := by
  rw [physicalName, h]

lemma physicalName_eq_self {longhand : String} (h : logical? longhand = none) :
    physicalName settings direction longhand = longhand := by
  rw [physicalName, h]

/-- A keyword relative to the direction is rendered, and its mark is kept. -/
lemma physicalValue_eq_render {property : String} {value : List Char} {l : Logical}
    (htakes : takesLogicalKeyword property = true)
    (h : logicalKeyword? (String.ofList (Text.lower (splitImportance value).1)) = some l) :
    physicalValue settings direction property value =
      attachImportance (settings.render direction l).toList (splitImportance value).2 := by
  simp only [physicalValue, htakes, if_true, h]

/-- Any other value is emitted as it is. -/
lemma physicalValue_eq_self {property : String} {value : List Char}
    (h : takesLogicalKeyword property = true →
      logicalKeyword? (String.ofList (Text.lower (splitImportance value).1)) = none) :
    physicalValue settings direction property value = value := by
  cases htakes : takesLogicalKeyword property with
  | false => simp only [physicalValue, htakes, Bool.false_eq_true, if_false]
  | true => simp only [physicalValue, htakes, if_true, h htakes]

/-- The longhand resolves to the declaration. -/
def ResolvesTo (settings : Settings) (direction : Direction) (l : String × Value)
    (d : Declaration) : Prop :=
  resolveLonghand settings direction l.1 l.2 = .ok d

/-- An entry resolves to what its longhands resolve to. -/
lemma resolve_eq_ok {name : String} {value : Value} {s : DeclarationSet} :
    resolve settings direction name value = .ok s ↔
      checkKnown settings name value = .ok () ∧
        ∃ ds, List.Forall₂ (ResolvesTo settings direction) (expand (dashed name) value) ds ∧
          .ofList ds = s := by
  simp only [resolve_eq, bind_eq_ok, pure_eq_ok, exists_unit, mapM_eq_ok]
  rfl

/-- What a declaration remembers of its origin: property and value are what the origin and the
source value give for the direction, and the source value is safe. -/
structure Declaration.Resolved (settings : Settings) (direction : Direction)
    (d : Declaration) : Prop where
  property : d.property = physicalName settings direction d.origin
  value : d.value.toList =
    physicalValue settings direction d.property d.sourceValue.toList
  safe : terminator? d.sourceValue.toList = none

/-- The text of the value, and the declaration that is made of it. -/
lemma exists_text_of_resolvesTo {l : String × Value} {d : Declaration}
    (h : ResolvesTo settings direction l d) :
    ∃ text, valueText settings.strictValues (physicalName settings direction l.1) l.2 = .ok text ∧
      d.origin = l.1 ∧ d.property = physicalName settings direction l.1 ∧
        d.sourceValue = String.ofList text ∧
          d.value = String.ofList (physicalValue settings direction d.property text) := by
  obtain ⟨text, htext, h⟩ := bind_eq_ok.mp h
  obtain rfl := pure_eq_ok.mp h
  refine ⟨text, htext, rfl, rfl, ?_, rfl⟩
  by_cases hmapped : physicalValue settings direction (physicalName settings direction l.1) text =
      text
  · simp [Declaration.sourceValue, hmapped]
  · simp [Declaration.sourceValue, hmapped]

/-- **A resolved longhand remembers its origin.** -/
theorem resolved_of_resolvesTo {l : String × Value} {d : Declaration}
    (h : ResolvesTo settings direction l d) : d.Resolved settings direction := by
  obtain ⟨text, htext, horigin, hproperty, hsource, hvalue⟩ := exists_text_of_resolvesTo h
  refine ⟨?_, ?_, ?_⟩
  · rw [hproperty, horigin]
  · rw [hvalue, hsource, String.toList_ofList, String.toList_ofList]
  · rw [hsource, String.toList_ofList]
    exact terminator?_valueText htext

/-! ## Merging -/

/-- The declarations of a style as written, before any takes the place of another. -/
def writtenDeclarations (settings : Settings) (direction : Direction) (style : Value) :
    Outcome (List Declaration) := do
  let entries ← entriesOf style
  let longhands ← longhandsOf settings entries
  longhands.mapM fun l => resolveLonghand settings direction l.1 l.2

lemma writtenDeclarations_eq_ok {style : Value} {ds : List Declaration} :
    writtenDeclarations settings direction style = .ok ds ↔
      ∃ entries, entriesOf style = .ok entries ∧
        ∃ longhands, longhandsOf settings entries = .ok longhands ∧
          List.Forall₂ (ResolvesTo settings direction) longhands ds := by
  simp only [writtenDeclarations, bind_eq_ok, mapM_eq_ok]
  rfl

/-- Resolving the entries adds what is written for them. -/
lemma resolveEntries_eq_ok {before s : DeclarationSet} (hbefore : before.merging = true)
    {entries : List (Key × Value)} :
    resolveEntriesIn (m := Outcome) settings direction before entries = .ok s ↔
      ∃ longhands, longhandsOf settings entries = .ok longhands ∧
        ∃ ds, List.Forall₂ (ResolvesTo settings direction) longhands ds ∧
          before.addAll ds = s := by
  induction entries generalizing before with
  | nil =>
      constructor
      · intro h
        obtain rfl := Except.ok.inj h
        exact ⟨[], rfl, [], .nil, rfl⟩
      · rintro ⟨longhands, hl, ds, hds, rfl⟩
        obtain rfl := Except.ok.inj hl
        cases hds
        rfl
  | cons entry rest ih =>
      obtain ⟨key, value⟩ := entry
      simp only [resolveEntriesIn, step_outcome, resolveIn_outcome, resolve_eq_ok, bind_eq_ok,
        longhandsOf_cons_eq_ok]
      constructor
      · rintro ⟨name, hname, t, ⟨hknown, ds, hds, rfl⟩, h⟩
        rw [DeclarationSet.extend_ofList hbefore,
          ih ((DeclarationSet.merging_addAll _ _).trans hbefore)] at h
        obtain ⟨longhands, hlonghands, es, hes, rfl⟩ := h
        refine ⟨_, ⟨name, hname, hknown, longhands, hlonghands, rfl⟩, ds ++ es, ?_, ?_⟩
        · exact List.rel_append hds hes
        · exact List.foldl_append
      · rintro ⟨_, ⟨name, hname, hknown, longhands, hlonghands, rfl⟩, all, hall, rfl⟩
        obtain ⟨ds, es, rfl, hds, hes⟩ := exists_append_of_forall₂ hall
        refine ⟨name, hname, _, ⟨hknown, ds, hds, rfl⟩, ?_⟩
        rw [DeclarationSet.extend_ofList hbefore,
          ih ((DeclarationSet.merging_addAll _ _).trans hbefore)]
        exact ⟨longhands, hlonghands, es, hes, List.foldl_append.symm⟩

/-- **A style resolves to the merged list of its written declarations.** -/
theorem resolveStyle_eq_ok {style : Value} {s : DeclarationSet} :
    resolveStyle settings direction style = .ok s ↔
      ∃ ds, writtenDeclarations settings direction style = .ok ds ∧ .ofList ds = s := by
  simp only [resolveStyle, writtenDeclarations_eq_ok, bind_eq_ok]
  constructor
  · rintro ⟨entries, hentries, h⟩
    obtain ⟨longhands, hlonghands, ds, hds, rfl⟩ := (resolveEntries_eq_ok rfl).mp h
    exact ⟨ds, ⟨entries, hentries, longhands, hlonghands, hds⟩, rfl⟩
  · rintro ⟨ds, ⟨entries, hentries, longhands, hlonghands, hds⟩, rfl⟩
    exact ⟨entries, hentries, (resolveEntries_eq_ok rfl).mpr ⟨longhands, hlonghands, ds, hds, rfl⟩⟩

lemma mem_written_of_mem {ds : List Declaration} {d : Declaration}
    (h : d ∈ (DeclarationSet.ofList ds).declarations) : d ∈ ds := by
  rw [DeclarationSet.declarations_ofList] at h
  rcases mem_of_mem_placeAll h with h | h
  · simp at h
  · exact h

/-- Each written declaration is what a longhand of the style resolves to. -/
lemma exists_longhand_of_mem {style : Value} {ds : List Declaration}
    (h : writtenDeclarations settings direction style = .ok ds) {d : Declaration} (hd : d ∈ ds) :
    ∃ entries, entriesOf style = .ok entries ∧ ∃ name value, (Key.text name, value) ∈ entries ∧
      checkKnown settings name value = .ok () ∧
        ∃ l ∈ expand (dashed name) value, ResolvesTo settings direction l d := by
  obtain ⟨entries, hentries, longhands, hlonghands, hds⟩ := writtenDeclarations_eq_ok.mp h
  obtain ⟨l, hl, hld⟩ := exists_of_mem_forall₂ hds hd
  obtain ⟨name, value, hmem, hknown, hexpand⟩ := exists_of_mem_longhandsOf hlonghands hl
  exact ⟨entries, hentries, name, value, hmem, hknown, l, hexpand, hld⟩

lemma resolved_of_mem_written {style : Value} {ds : List Declaration}
    (h : writtenDeclarations settings direction style = .ok ds) {d : Declaration} (hd : d ∈ ds) :
    d.Resolved settings direction := by
  obtain ⟨_, _, _, _, _, _, l, _, hl⟩ := exists_longhand_of_mem h hd
  exact resolved_of_resolvesTo hl

/-- **Each declaration that a style resolves to remembers its origin.** -/
theorem resolved_of_mem {style : Value} {s : DeclarationSet}
    (h : resolveStyle settings direction style = .ok s) {d : Declaration}
    (hd : d ∈ s.declarations) : d.Resolved settings direction := by
  obtain ⟨ds, hds, rfl⟩ := resolveStyle_eq_ok.mp h
  exact resolved_of_mem_written hds (mem_written_of_mem hd)

end

end AtomicStyle
