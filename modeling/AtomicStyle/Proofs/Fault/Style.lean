import AtomicStyle.Proofs.Direction.Turning
import AtomicStyle.Proofs.Fault.Flip
import AtomicStyle.Proofs.Fault.Value
import AtomicStyle.Rule

/-!
# The faults of a style

An entry of a style can be a fault in two ways (`Defect`).  Its value has no canonical text and is
not rejected, or it resolves to a declaration that is to be flipped and holds a side word without
an opposite.  The first is met on resolving the entry (`faultsIn_resolve`), the second on making
the counterpart (`faultsIn_withCounterpart_of_resolveEntries`), which traces the declaration back to
its entry.

A list of steps has the faults of its steps, whatever family they are in; each loop has a lemma that
says so.  Shape, scalars and context of a style are rejected, if anything, so compiling a style ends
in no fault but those of its entries (`faultsIn_compileBlock`).
-/

namespace AtomicStyle

open Css Property

variable {settings : Settings} {P : Fault → Prop}

/-! ## Entries -/

/-- The faults of an entry of a style, in either direction. -/
inductive Defect (settings : Settings) (name : String) (value : Value) : Fault → Prop
  | text {f : Fault} (h : TextFault (dashed name) value f) : Defect settings name value f
  | side {f : Fault} {l : String × Value} {d : Declaration} {text : List Char}
      (hflips : settings.flipsValues = true) (hl : l ∈ expand (dashed name) value)
      (hd : ResolvesTo settings .ltr l d)
      (htext : Flip.FlipsWordsOf (turned settings d).property
        (splitImportance (turned settings d).value.toList).1 text)
      (h : Flip.SideFault text f) : Defect settings name value f

/-- The faults of the entries of a style. -/
def StyleFault (settings : Settings) (entries : List (Key × Value)) (f : Fault) : Prop :=
  ∃ name value, (Key.text name, value) ∈ entries ∧ Defect settings name value f

/-- A longhand has the faults of its value. -/
lemma faultsIn_resolveLonghand {direction : Direction} {property : String} {value : Value}
    {l : String × Value} (hl : l ∈ expand property value) :
    FaultsIn (TextFault property value) (resolveLonghand settings direction l.1 l.2) :=
  ((faultsIn_valueText _).mono fun _ hf => textFault_of_mem_expand hl hf).bind_pure _

lemma faultsIn_resolve (direction : Direction) (name : String) (value : Value) :
    FaultsIn (Defect settings name value) (resolve settings direction name value) := by
  rw [resolve_eq]
  refine FaultsIn.bind (.ite_reject (.of_ok ())) fun _ _ => FaultsIn.bind_pure (.mapM ?_) _
  exact fun l hl => (faultsIn_resolveLonghand hl).mono fun _ => .text

/-- The keys are texts. -/
def TextKeys (entries : List (Key × Value)) : Prop :=
  ∀ e ∈ entries, ∃ s, e.1 = .text s

lemma faultsIn_resolveEntries {direction : Direction} {before : DeclarationSet}
    {entries : List (Key × Value)} (hkeys : TextKeys entries) :
    FaultsIn (StyleFault settings entries)
      (resolveEntriesIn settings direction before entries) := by
  induction entries generalizing before with
  | nil => exact .of_ok before
  | cons entry rest ih =>
      obtain ⟨⟨name, hname⟩, hrest⟩ := List.forall_mem_cons.mp hkeys
      obtain ⟨key, value⟩ := entry
      obtain rfl : key = .text name := hname
      refine FaultsIn.bind (.of_ok name) fun name' hname' => ?_
      obtain rfl : name = name' := Except.ok.inj hname'
      refine ((faultsIn_resolve direction name value).mono fun f hf => ?_).bind fun s _ =>
        (ih hrest).mono ?_
      · exact ⟨name, value, List.mem_cons_self, hf⟩
      · rintro f ⟨other, given, hmem, hf⟩
        exact ⟨other, given, List.mem_cons_of_mem _ hmem, hf⟩

/-! ## Counterparts -/

/-- The counterpart of a declaration has the faults of flipping the turned one. -/
lemma faultsIn_counterpartDeclaration (d : Declaration) :
    FaultsIn (fun f => settings.flipsValues = true ∧ ∃ text,
        Flip.FlipsWordsOf (turned settings d).property
          (splitImportance (turned settings d).value.toList).1 text ∧ Flip.SideFault text f)
      (counterpartDeclaration settings d) := by
  rw [counterpartDeclaration_eq, Settings.flip]
  refine FaultsIn.bind_pure ?_ _
  split_ifs with hflips
  · exact (Flip.faultsIn_flipValue _ _).mono fun f hf => ⟨hflips, hf⟩
  · exact .of_ok _

lemma faultsIn_firstSensitive? {ds : List Declaration}
    (h : ∀ d ∈ ds, FaultsIn P (counterpartDeclaration settings d)) :
    FaultsIn P (firstSensitive? settings ds) := by
  induction ds with
  | nil => exact .of_ok none
  | cons d ds ih =>
      obtain ⟨hd, hds⟩ := List.forall_mem_cons.mp h
      refine hd.bind fun other _ => ?_
      split_ifs
      · exact .of_ok _
      · exact ih hds

lemma faultsIn_withCounterpart {s : DeclarationSet}
    (h : ∀ d ∈ s.declarations, FaultsIn P (counterpartDeclaration settings d)) :
    FaultsIn P (withCounterpartIn settings s) := by
  refine (faultsIn_firstSensitive? h).bind fun sensitive _ => ?_
  cases sensitive with
  | none => exact .of_ok _
  | some d => exact ((FaultsIn.mapM h).bind_pure _).bind_pure _

/-- **The counterpart of a style has the faults of its entries.** -/
theorem faultsIn_withCounterpart_of_resolveEntries {entries : List (Key × Value)}
    {s : DeclarationSet} (hs : resolveEntriesIn (m := Outcome) settings .ltr {} entries = .ok s) :
    FaultsIn (StyleFault settings entries) (withCounterpartIn settings s) := by
  refine faultsIn_withCounterpart fun d hd => (faultsIn_counterpartDeclaration d).mono ?_
  rintro f ⟨hflips, text, htext, hf⟩
  have hstyle : resolveStyle settings .ltr (.map entries) = .ok s := hs
  obtain ⟨ds, hds, rfl⟩ := resolveStyle_eq_ok.mp hstyle
  obtain ⟨_, hentries, name, value, hmem, _, l, hl, hld⟩ :=
    exists_longhand_of_mem hds (mem_written_of_mem hd)
  obtain rfl := Except.ok.inj hentries
  exact ⟨name, value, hmem, .side hflips hl hld htext hf⟩

/-! ## Styles -/

lemma faultsIn_checkScalars (entries : List (Key × Value)) :
    FaultsIn P (checkScalars entries) := by
  induction entries with
  | nil => exact .of_ok ()
  | cons entry rest ih =>
      obtain ⟨key, value⟩ := entry
      cases value with
      | map _ => exact .of_reject _
      | null => exact .of_reject _
      | _ => exact ih

lemma faultsIn_tidy (context : Context) : FaultsIn P context.tidy := by
  unfold Context.tidy
  dsimp only
  split
  · exact .of_reject _
  · split
    · exact .of_reject _
    · exact .of_ok _

lemma faultsIn_compileBlock (context : Context) {entries : List (Key × Value)}
    (hkeys : TextKeys entries) :
    FaultsIn (StyleFault settings entries) (compileBlock settings context (.map entries)) := by
  cases entries with
  | nil => exact .of_reject _
  | cons entry rest =>
      refine FaultsIn.bind (.of_ok _) fun entries hentries => ?_
      obtain rfl := Except.ok.inj hentries
      refine (faultsIn_checkScalars _).bind fun _ _ => (faultsIn_tidy context).bind fun _ _ => ?_
      refine (faultsIn_resolveEntries hkeys).bind fun s hs => ?_
      exact (faultsIn_withCounterpart_of_resolveEntries hs).bind_pure _

end AtomicStyle
