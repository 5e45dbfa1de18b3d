import AtomicStyle.Declaration
import AtomicStyle.Proofs.LastWins
import Mathlib.Data.List.Forall2

/-!
# Merging declarations

A merging set is built one declaration after the other, and an entry of a style is merged by
itself before it is merged into the style.  The two mergings are one: `placeAll_placeAll` says
that merging a list that was merged before is merging the list.

**One placement.**  Placing a declaration is settling it under its property (`place_eq_settle`), so
the properties are those of the general law.

**Order of placement.**  Of two placements for one property the later one counts (`place_place`).
Two placements for different properties commute when the place of one is there already
(`place_comm`); when both are new they do not, since the order of arrival is kept.

**The last declaration wins.**  A merged list holds each property once, where it came first, with
the declaration that came last (`keepsLast_placeAll`).  `lastFor?` finds the last entry of a list
for a property, and merging does not change what it finds (`lastFor?_placeAll`).  A list that is
matched entry by entry with another one has matching entries to find (`lastFor?_rel`).
-/

namespace AtomicStyle

/-! ## Placing one declaration -/

lemma place_eq_settle (d : Declaration) (ds : List Declaration) :
    place d ds = settle Declaration.property d ds := by
  induction ds with
  | nil => rfl
  | cons e es ih => rw [place, settle, ih]

/-- Placing a declaration keeps the properties, and their order, unless the property is new. -/
lemma map_property_place (d : Declaration) (ds : List Declaration) :
    (place d ds).map Declaration.property =
      if d.property ∈ ds.map Declaration.property then ds.map Declaration.property
      else ds.map Declaration.property ++ [d.property] := by
  rw [place_eq_settle, map_key_settle]

lemma mem_of_mem_place {d e : Declaration} {ds : List Declaration} (h : e ∈ place d ds) :
    e = d ∨ e ∈ ds := by
  induction ds with
  | nil => exact Or.inl (List.mem_singleton.mp h)
  | cons x xs ih =>
      rw [place] at h
      split_ifs at h
      · rcases List.mem_cons.mp h with rfl | h
        · exact Or.inl rfl
        · exact Or.inr (List.mem_cons_of_mem x h)
      · rcases List.mem_cons.mp h with rfl | h
        · exact Or.inr List.mem_cons_self
        · rcases ih h with rfl | h
          · exact Or.inl rfl
          · exact Or.inr (List.mem_cons_of_mem x h)

/-- Of two placements for one property the later one counts. -/
lemma place_place {d e : Declaration} (h : e.property = d.property) (ds : List Declaration) :
    place d (place e ds) = place d ds := by
  induction ds with
  | nil => simp [place, h]
  | cons x xs ih =>
      by_cases hx : x.property = e.property
      · rw [place, if_pos hx, place, if_pos h, place, if_pos (hx.trans h)]
      · have hx' : ¬x.property = d.property := fun heq => hx (heq.trans h.symm)
        rw [place, if_neg hx, place, if_neg hx', ih, place, if_neg hx']

/-- Placements for different properties commute when the place of one is there already. -/
lemma place_comm {d e : Declaration} {ds : List Declaration}
    (hmem : d.property ∈ ds.map Declaration.property) (hne : e.property ≠ d.property) :
    place d (place e ds) = place e (place d ds) := by
  induction ds with
  | nil => simp at hmem
  | cons x xs ih =>
      by_cases hd : x.property = d.property
      · have he : ¬x.property = e.property := fun heq => hne (heq.symm.trans hd)
        have hde : ¬d.property = e.property := fun heq => hne heq.symm
        rw [place, if_neg he, place, if_pos hd, place, if_pos hd, place, if_neg hde]
      · have hmem' : d.property ∈ xs.map Declaration.property := by
          rw [List.map_cons, List.mem_cons] at hmem
          rcases hmem with heq | hmem
          · exact absurd heq.symm hd
          · exact hmem
        by_cases he : x.property = e.property
        · rw [place, if_pos he, place, if_neg hne, place, if_neg hd, place, if_pos he]
        · rw [place, if_neg he, place, if_neg hd, ih hmem', place, if_neg hd, place, if_neg he]

lemma nodup_place {d : Declaration} {ds : List Declaration}
    (h : (ds.map Declaration.property).Nodup) :
    ((place d ds).map Declaration.property).Nodup := by
  rw [map_property_place]
  split_ifs with hmem
  · exact h
  · rw [← List.concat_eq_append]
    exact List.Nodup.concat hmem h

/-! ## Placing many -/

/-- Places the declarations of a list one after the other. -/
def placeAll (ds es : List Declaration) : List Declaration :=
  es.foldl (fun held d => place d held) ds

@[simp] lemma placeAll_nil (ds : List Declaration) : placeAll ds [] = ds := rfl

lemma placeAll_cons (ds : List Declaration) (e : Declaration) (es : List Declaration) :
    placeAll ds (e :: es) = placeAll (place e ds) es := rfl

lemma placeAll_append (ds es fs : List Declaration) :
    placeAll ds (es ++ fs) = placeAll (placeAll ds es) fs :=
  List.foldl_append

lemma placeAll_concat (ds es : List Declaration) (d : Declaration) :
    placeAll ds (es ++ [d]) = place d (placeAll ds es) := by
  rw [placeAll_append, placeAll_cons, placeAll_nil]

lemma nodup_placeAll {ds : List Declaration} (h : (ds.map Declaration.property).Nodup)
    (es : List Declaration) : ((placeAll ds es).map Declaration.property).Nodup := by
  induction es generalizing ds with
  | nil => exact h
  | cons e es ih => exact ih (nodup_place h)

lemma mem_of_mem_placeAll {d : Declaration} {ds es : List Declaration}
    (h : d ∈ placeAll ds es) : d ∈ ds ∨ d ∈ es := by
  induction es generalizing ds with
  | nil => exact Or.inl h
  | cons e es ih =>
      rcases ih h with h | h
      · rcases mem_of_mem_place h with rfl | h
        · exact Or.inr List.mem_cons_self
        · exact Or.inl h
      · exact Or.inr (List.mem_cons_of_mem e h)

/-- **Merging holds each property once, where it came first, with its last declaration.** -/
theorem keepsLast_placeAll (es : List Declaration) :
    KeepsLast Declaration.property es (placeAll [] es) := by
  have hplace : placeAll [] es = settleAll Declaration.property es := by
    simp only [placeAll, settleAll, place_eq_settle]
  rw [hplace]
  exact keepsLast_settleAll _ es

/-- A placement may wait until others for other properties are made. -/
lemma place_placeAll_of_mem {d : Declaration} {ds es : List Declaration}
    (hmem : d.property ∈ ds.map Declaration.property)
    (hes : d.property ∉ es.map Declaration.property) :
    place d (placeAll ds es) = placeAll (place d ds) es := by
  induction es generalizing ds with
  | nil => rfl
  | cons e es ih =>
      rw [List.map_cons, List.mem_cons, not_or] at hes
      obtain ⟨hne, hes⟩ := hes
      have hmem' : d.property ∈ (place e ds).map Declaration.property := by
        rw [map_property_place]
        split_ifs
        · exact hmem
        · exact List.mem_append_left _ hmem
      rw [placeAll_cons, ih hmem' hes, placeAll_cons, place_comm hmem fun heq => hne heq.symm]

/-- Placing a list in which a declaration is placed is placing the declaration last. -/
lemma placeAll_place {d : Declaration} {es : List Declaration}
    (hes : (es.map Declaration.property).Nodup) (ds : List Declaration) :
    placeAll ds (place d es) = place d (placeAll ds es) := by
  induction es generalizing ds with
  | nil => rfl
  | cons e es ih =>
      rw [List.map_cons, List.nodup_cons] at hes
      obtain ⟨he, hes⟩ := hes
      rw [place]
      split_ifs with heq
      · have hmem : d.property ∈ (place e ds).map Declaration.property :=
          heq ▸ List.mem_map_of_mem (DeclarationSet.mem_place e ds)
        rw [placeAll_cons, placeAll_cons, place_placeAll_of_mem hmem (heq ▸ he), place_place heq]
      · rw [placeAll_cons, placeAll_cons, ih hes]

/-- A declaration for a new property comes last. -/
lemma place_of_not_mem {d : Declaration} {ds : List Declaration}
    (h : d.property ∉ ds.map Declaration.property) : place d ds = ds ++ [d] := by
  induction ds with
  | nil => rfl
  | cons x xs ih =>
      rw [List.map_cons, List.mem_cons, not_or] at h
      rw [place, if_neg fun heq => h.1 heq.symm, ih h.2]
      rfl

/-- A declaration that is there already takes its own place. -/
lemma place_of_mem {d : Declaration} {ds : List Declaration}
    (hnodup : (ds.map Declaration.property).Nodup) (h : d ∈ ds) : place d ds = ds := by
  induction ds with
  | nil => exact absurd h List.not_mem_nil
  | cons x xs ih =>
      rw [List.map_cons, List.nodup_cons] at hnodup
      rw [place]
      rcases List.mem_cons.mp h with rfl | h
      · rw [if_pos rfl]
      · have hne : ¬x.property = d.property := by
          intro heq
          rw [heq] at hnodup
          exact hnodup.1 (List.mem_map_of_mem h)
        rw [if_neg hne, ih hnodup.2 h]

lemma placeAll_of_subset {ds es : List Declaration}
    (hnodup : (ds.map Declaration.property).Nodup) (h : ∀ e ∈ es, e ∈ ds) :
    placeAll ds es = ds := by
  induction es with
  | nil => rfl
  | cons e es ih =>
      obtain ⟨he, hes⟩ := List.forall_mem_cons.mp h
      rw [placeAll_cons, place_of_mem hnodup he, ih hes]

/-- Declarations for different properties are merged into themselves. -/
lemma placeAll_of_nodup {ds es : List Declaration}
    (h : ((ds ++ es).map Declaration.property).Nodup) : placeAll ds es = ds ++ es := by
  induction es generalizing ds with
  | nil => rw [placeAll_nil, List.append_nil]
  | cons e es ih =>
      have hnew : e.property ∉ ds.map Declaration.property := by
        rw [List.map_append, List.nodup_append] at h
        intro hmem
        exact h.2.2 _ hmem _ (by simp) rfl
      rw [placeAll_cons, place_of_not_mem hnew, ih (by simpa using h), List.append_assoc]
      rfl

/-- **Merging what was merged before is merging it.** -/
theorem placeAll_placeAll (ds es : List Declaration) :
    placeAll ds (placeAll [] es) = placeAll ds es := by
  -- from the right, since it is the last placement that may replace an earlier one
  induction es using List.reverseRecOn with
  | nil => rfl
  | append_singleton es d ih =>
      have hnodup : ((placeAll [] es).map Declaration.property).Nodup :=
        nodup_placeAll (by simp) es
      rw [placeAll_concat, placeAll_place hnodup, ih, placeAll_concat]

namespace DeclarationSet

/-- In a merging set, adding declarations is placing them. -/
lemma declarations_addAll {s : DeclarationSet} (h : s.merging = true) (ds : List Declaration) :
    (s.addAll ds).declarations = placeAll s.declarations ds := by
  induction ds generalizing s with
  | nil => rfl
  | cons d ds ih =>
      have hadd : (s.add d).declarations = place d s.declarations := by simp [add, h]
      have hrest := ih (s := s.add d) h
      rw [hadd] at hrest
      exact hrest

lemma merging_addAll (s : DeclarationSet) (ds : List Declaration) :
    (s.addAll ds).merging = s.merging := by
  induction ds generalizing s with
  | nil => rfl
  | cons d ds ih => exact ih (s.add d)

/-- The set of some declarations holds them with each in its place. -/
lemma declarations_ofList (ds : List Declaration) :
    (ofList ds).declarations = placeAll [] ds :=
  declarations_addAll rfl ds

/-- Without merging, declarations are added behind those that are there. -/
lemma declarations_addAll_of_not_merging {s : DeclarationSet} (h : s.merging = false)
    (ds : List Declaration) : (s.addAll ds).declarations = s.declarations ++ ds := by
  induction ds generalizing s with
  | nil => exact (List.append_nil _).symm
  | cons d ds ih =>
      have hrest := ih (s := s.add d) h
      rw [declarations_add_of_not_merging h, List.append_assoc, List.singleton_append] at hrest
      exact hrest

/-- A set that does not merge holds just the declarations it is made of. -/
lemma declarations_ofList_false (ds : List Declaration) :
    (ofList ds false).declarations = ds :=
  declarations_addAll_of_not_merging rfl ds

protected lemma ext {s t : DeclarationSet} (hmerging : s.merging = t.merging)
    (hdeclarations : s.declarations = t.declarations) : s = t := by
  obtain ⟨merging, declarations⟩ := s
  obtain rfl : merging = t.merging := hmerging
  obtain rfl : declarations = t.declarations := hdeclarations
  rfl

/-- **Adding a merged set is adding the declarations it was merged from.** -/
theorem extend_ofList {s : DeclarationSet} (h : s.merging = true) (ds : List Declaration) :
    s.extend (ofList ds) = s.addAll ds := by
  have hdeclarations : (s.addAll (ofList ds).declarations).declarations =
      (s.addAll ds).declarations := by
    rw [declarations_addAll h, declarations_addAll h, declarations_ofList, placeAll_placeAll]
  have hmerging : (s.addAll (ofList ds).declarations).merging = (s.addAll ds).merging := by
    rw [merging_addAll, merging_addAll]
  exact DeclarationSet.ext hmerging hdeclarations

end DeclarationSet

/-! ## The last declaration wins -/

section

variable {α β : Type} {key : α → String}

/-- The last entry of a list with the given key. -/
def lastFor? (key : α → String) (property : String) (xs : List α) : Option α :=
  xs.reverse.find? fun x => key x = property

@[simp] lemma lastFor?_nil (property : String) : lastFor? key property [] = none := rfl

lemma lastFor?_append (property : String) (xs ys : List α) :
    lastFor? key property (xs ++ ys) =
      (lastFor? key property ys).or (lastFor? key property xs) := by
  rw [lastFor?, List.reverse_append, List.find?_append]
  rfl

lemma lastFor?_cons (property : String) (x : α) (xs : List α) :
    lastFor? key property (x :: xs) =
      (lastFor? key property xs).or (if key x = property then some x else none) := by
  rw [← List.singleton_append, lastFor?_append]
  congr 1
  by_cases hx : key x = property <;> simp [lastFor?, hx]

lemma lastFor?_eq_none_iff {property : String} {xs : List α} :
    lastFor? key property xs = none ↔ ∀ x ∈ xs, key x ≠ property := by
  simp [lastFor?]

lemma mem_of_lastFor? {property : String} {xs : List α} {x : α}
    (h : lastFor? key property xs = some x) : x ∈ xs :=
  List.mem_reverse.mp (List.mem_of_find?_eq_some h)

lemma key_of_lastFor? {property : String} {xs : List α} {x : α}
    (h : lastFor? key property xs = some x) : key x = property := by
  simpa using List.find?_some h

/-- Where two keys pick out the same entries they find the same one. -/
lemma lastFor?_congr {key' : α → String} {p q : String} {xs : List α}
    (h : ∀ x ∈ xs, key x = p ↔ key' x = q) : lastFor? key p xs = lastFor? key' q xs := by
  induction xs with
  | nil => rfl
  | cons x xs ih =>
      obtain ⟨hx, hxs⟩ := List.forall_mem_cons.mp h
      rw [lastFor?_cons, lastFor?_cons, ih hxs]
      simp only [hx]

/-- **Lists that match entry by entry have matching entries to find.** -/
theorem lastFor?_rel {key' : β → String} {R : α → β → Prop} (hkey : ∀ a b, R a b → key a = key' b)
    {xs : List α} {ys : List β} (h : List.Forall₂ R xs ys) (property : String) :
    Option.Rel R (lastFor? key property xs) (lastFor? key' property ys) := by
  induction h with
  | nil => exact .none
  | @cons x y xs ys hxy _ ih =>
      rw [lastFor?_cons, lastFor?_cons, ← hkey x y hxy]
      revert ih
      cases lastFor? key property xs <;> cases lastFor? key' property ys <;> intro ih
      · split_ifs
        · exact .some hxy
        · exact .none
      · cases ih
      · cases ih
      · exact ih

end

/-- **Merging keeps the last declaration of each property.** -/
theorem lastFor?_placeAll (es : List Declaration) (property : String) :
    lastFor? Declaration.property property (placeAll [] es) =
      lastFor? Declaration.property property es := by
  have hkept := keepsLast_placeAll es
  -- of different properties it does not matter from which end one looks
  exact ((KeepsLast.of_nodup hkept.nodup).find?_eq property).symm.trans (hkept.find?_eq property)

end AtomicStyle
