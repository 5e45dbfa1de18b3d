import AtomicStyle.Proofs.Direction.Turning

/-!
# Runs of additions to a set of declarations

A set is filled by calls, each of which adds one declaration or all those of a set, which may be
the set itself.  What a run of calls leaves behind depends on the declarations that were added, in
order, and on whether the set merges; how they were spread over the calls makes no difference
(`run_eq_addAll`).

**Merging sets.**  A set that merges holds each property once, where it came first, with the
declaration that was added last for it (`keepsLast_run`).  So it has nothing to add to itself
(`extend_self_run`), and a style never resolves to two declarations for one property
(`keepsLast_of_resolveStyle`).

**Other sets.**  A set that does not merge holds all that was added, in order
(`declarations_run_of_not_merging`).  Counterparts are collected in such a set, so they match the
declarations one by one even where two of them share their property.
-/

namespace AtomicStyle

namespace DeclarationSet

/-- A call that adds to a set. -/
inductive Call where
  | add (d : Declaration)
  | extend (other : DeclarationSet)
  /-- Extends a set by itself, as it was before the call. -/
  | extendBySelf

/-- The declarations that a call adds to a set, in order. -/
def Call.additions (s : DeclarationSet) : Call → List Declaration
  | .add d => [d]
  | .extend other => other.declarations
  | .extendBySelf => s.declarations

/-- The set behind a call. -/
def perform (s : DeclarationSet) : Call → DeclarationSet
  | .add d => s.add d
  | .extend other => s.extend other
  | .extendBySelf => s.extend s

/-- The set behind calls made one after the other. -/
def run (s : DeclarationSet) (calls : List Call) : DeclarationSet :=
  calls.foldl perform s

/-- The declarations that are added by calls made one after the other, in order. -/
def added (s : DeclarationSet) : List Call → List Declaration
  | [] => []
  | call :: calls => call.additions s ++ added (s.perform call) calls

/-! ## Calls -/

lemma perform_eq_addAll (s : DeclarationSet) (call : Call) :
    s.perform call = s.addAll (call.additions s) := by
  cases call <;> rfl

/-- **A run adds the declarations of its calls.** -/
theorem run_eq_addAll (s : DeclarationSet) (calls : List Call) :
    s.run calls = s.addAll (s.added calls) := by
  induction calls generalizing s with
  | nil => rfl
  | cons call calls ih =>
      have hrest : (s.perform call).run calls =
          (s.addAll (call.additions s)).addAll ((s.perform call).added calls) := by
        rw [ih, perform_eq_addAll]
      exact hrest.trans List.foldl_append.symm

/-! ## Merging sets -/

/-- **A set that merges holds the last declaration of each property**, in the order in which the
properties first came. -/
theorem keepsLast_run (calls : List Call) :
    KeepsLast Declaration.property (added {} calls) (run {} calls).declarations := by
  rw [run_eq_addAll, declarations_addAll rfl]
  exact keepsLast_placeAll _

lemma nodup_properties_run (calls : List Call) : (run {} calls).properties.Nodup :=
  (keepsLast_run calls).nodup

/-- **A set has nothing to add to itself** if it merges. -/
theorem extend_self_run (calls : List Call) :
    (run {} calls).extend (run {} calls) = run {} calls := by
  have hmerging : (run {} calls).merging = true := by rw [run_eq_addAll, merging_addAll]
  refine DeclarationSet.ext (merging_addAll _ _) ?_
  rw [extend, declarations_addAll hmerging]
  exact placeAll_of_subset (nodup_properties_run calls) fun _ h => h

/-- **A style resolves to the last declaration of each property that is written.** -/
theorem keepsLast_of_resolveStyle {settings : Settings} {direction : Direction} {style : Value}
    {s : DeclarationSet} (h : resolveStyle settings direction style = .ok s) :
    ∃ ds, writtenDeclarations settings direction style = .ok ds ∧
      KeepsLast Declaration.property ds s.declarations := by
  obtain ⟨ds, hds, rfl⟩ := resolveStyle_eq_ok.mp h
  rw [declarations_ofList]
  exact ⟨ds, hds, keepsLast_placeAll ds⟩

/-! ## Other sets -/

/-- **A set that does not merge holds all that was added to it.** -/
theorem declarations_run_of_not_merging {s : DeclarationSet} (h : s.merging = false)
    (calls : List Call) :
    (s.run calls).declarations = s.declarations ++ s.added calls := by
  rw [run_eq_addAll, declarations_addAll_of_not_merging h]

/-- A counterpart is collected declaration by declaration, without merging. -/
lemma eq_run_of_counterpart {settings : Settings} {s m : DeclarationSet}
    (h : counterpart settings s = .ok m) :
    m = run { merging := false } (m.declarations.map .add) := by
  obtain ⟨ds, _, rfl⟩ := counterpart_eq_ok.mp h
  rw [declarations_ofList_false, run, List.foldl_map]
  rfl

/-- **A set is a map in the order of insertion.**  Behind any run of calls on an empty set that
merges, each property is held once, where it was first added, with the declaration added last for
it, and the set has nothing to add to itself; so the declarations that a style resolves to have
different properties.  Behind the same calls on an empty set that does not merge, all that was added
is held, in order; so the counterpart of a set, which is collected like that, matches it declaration
by declaration. -/
theorem ordered_of_run (calls : List Call) :
    KeepsLast Declaration.property (added {} calls) (run {} calls).declarations ∧
      (run {} calls).properties.Nodup ∧
      (run {} calls).extend (run {} calls) = run {} calls ∧
      (run { merging := false } calls).declarations = added { merging := false } calls ∧
      (∀ settings direction style s, resolveStyle settings direction style = .ok s →
        s.properties.Nodup ∧ ∃ ds, writtenDeclarations settings direction style = .ok ds ∧
          KeepsLast Declaration.property ds s.declarations) ∧
      ∀ settings s m, counterpart settings s = .ok m →
        m = run { merging := false } (m.declarations.map .add) ∧ m.size = s.size ∧
          List.Forall₂ (fun d e => counterpartDeclaration settings d = .ok e) s.declarations
            m.declarations := by
  refine ⟨keepsLast_run calls, nodup_properties_run calls, extend_self_run calls, ?_, ?_, ?_⟩
  · rw [declarations_run_of_not_merging rfl]
    rfl
  · intro settings direction style s hs
    obtain ⟨ds, hds, hkept⟩ := keepsLast_of_resolveStyle hs
    exact ⟨hkept.nodup, ds, hds, hkept⟩
  · intro settings s m hm
    have hmatch := forall₂_counterpart hm
    exact ⟨eq_run_of_counterpart hm, hmatch.length_eq.symm, hmatch⟩

/-- Two edges that are named again and extended by themselves, and a style whose edges share their
property when they are turned. -/
theorem ordered_of_run_with_shared_edge :
    ∃ (calls : List Call) (s m : DeclarationSet),
      calls = [.add ⟨"left", "1px", "left", none⟩,
          .extend { declarations :=
            [⟨"right", "2px", "right", none⟩, ⟨"left", "3px", "left", none⟩] },
          .extendBySelf, .add ⟨"right", "4px", "right", none⟩] ∧
        (run {} calls).items = [("left", "3px"), ("right", "4px")] ∧
        (run {} calls).properties.Nodup ∧
        ((run { merging := false } calls).items =
            [("left", "1px"), ("right", "2px"), ("left", "3px"), ("left", "1px"),
              ("right", "2px"), ("left", "3px"), ("right", "4px")] ∧
          (run { merging := false } calls).declarations = added { merging := false } calls) ∧
        resolveStyle { resolution := .physical } .ltr
          (.map [(.text "right", .text "3px"), (.text "left", .text "2px"),
            (.text "end", .text "1px")]) = .ok s ∧
        counterpart { resolution := .physical } s = .ok m ∧
        s.items = [("right", "1px"), ("left", "2px")] ∧ s.properties.Nodup ∧
        m.items = [("left", "1px"), ("left", "2px")] ∧ m.size = s.size := by
  have hrun : (do
      let s ← resolveStyle { resolution := .physical } .ltr
        (.map [(.text "right", .text "3px"), (.text "left", .text "2px"),
          (.text "end", .text "1px")])
      let m ← counterpart { resolution := .physical } s
      pure (s.items, m.items) : Outcome (List (String × String) × List (String × String))) =
      .ok ([("right", "1px"), ("left", "2px")], [("left", "1px"), ("left", "2px")]) :=
    eq_ok_of_toOption (by decide +kernel)
  simp only [bind_eq_ok, pure_eq_ok, Prod.mk.injEq] at hrun
  obtain ⟨s, hs, m, hm, hsitems, hmitems⟩ := hrun
  obtain ⟨_, hnodup, _, hadded, hstyle, hcounterpart⟩ := ordered_of_run
    [.add ⟨"left", "1px", "left", none⟩,
      .extend { declarations := [⟨"right", "2px", "right", none⟩, ⟨"left", "3px", "left", none⟩] },
      .extendBySelf, .add ⟨"right", "4px", "right", none⟩]
  exact ⟨_, s, m, rfl, by decide, hnodup, ⟨by decide, hadded⟩, hs, hm, hsitems,
    (hstyle _ _ _ s hs).1, hmitems, (hcounterpart _ s m hm).2.1⟩

end DeclarationSet

end AtomicStyle
