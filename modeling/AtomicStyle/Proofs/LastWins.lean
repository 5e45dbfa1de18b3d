import Mathlib.Data.List.Induction
import Mathlib.Data.List.Nodup
import Mathlib.Tactic.Lemma
import Mathlib.Tactic.SplitIfs

/-!
# One entry for each key, and the last one wins

Declarations come under their properties and classes under theirs, and in both cases an entry takes
the place of the one that was there under its key.  This file says what is held behind any number
of such entries.

**A step.**  `settle` puts one entry in its place.  It keeps the order of the keys
(`map_key_settle`) and replaces what was held under the key of the entry (`mem_settle`).

**The law.**  What is held has each key once, where it came first, and under each key the entry that
came last: `KeepsLast` is kept by a step (`KeepsLast.settle`) and so holds behind any run
(`keepsLast_settleAll`).  There is only one such list (`KeepsLast.eq_filterMap`).

**Two runs.**  So it makes no difference if a run is made in two parts and their results are put
together (`KeepsLast.append`), or if an entry is left out whose key came before and comes again
(`KeepsLast.insert`).
-/

namespace AtomicStyle

/-! ## First occurrences -/

section

variable {κ : Type} [DecidableEq κ]

/-- A key is counted once, where it came first. -/
lemma eraseDups_concat (keys : List κ) (k : κ) :
    (keys ++ [k]).eraseDups = if k ∈ keys then keys.eraseDups else keys.eraseDups ++ [k] := by
  rw [List.eraseDups_append]
  split_ifs with h
  · simp [List.removeAll, h]
  · simp [List.removeAll, h, List.eraseDups_cons]

lemma nodup_eraseDups (keys : List κ) : keys.eraseDups.Nodup := by
  induction keys using List.reverseRecOn with
  | nil => exact List.nodup_nil
  | append_singleton keys k ih =>
      rw [eraseDups_concat]
      split_ifs with h
      · exact ih
      · rw [← List.concat_eq_append]
        exact List.Nodup.concat (mt List.mem_eraseDups.mp h) ih

lemma eraseDups_eq_self {keys : List κ} (h : keys.Nodup) : keys.eraseDups = keys := by
  induction keys using List.reverseRecOn with
  | nil => rfl
  | append_singleton keys k ih =>
      obtain ⟨hkeys, -, hne⟩ := List.nodup_append.mp h
      rw [eraseDups_concat, if_neg fun hk => hne k hk k List.mem_cons_self rfl, ih hkeys]

/-- Keys may be counted in two parts first. -/
lemma eraseDups_append_eraseDups (front back : List κ) :
    (front.eraseDups ++ back.eraseDups).eraseDups = (front ++ back).eraseDups := by
  induction back using List.reverseRecOn with
  | nil =>
      have hnil : ([] : List κ).eraseDups = [] := rfl
      rw [hnil, List.append_nil, List.append_nil, eraseDups_eq_self (nodup_eraseDups front)]
  | append_singleton back k ih =>
      rw [eraseDups_concat, ← List.append_assoc, eraseDups_concat, ← ih]
      by_cases h : k ∈ back
      · rw [if_pos h, if_pos (List.mem_append_right front h)]
      · rw [if_neg h, ← List.append_assoc, eraseDups_concat]
        simp only [List.mem_append, List.mem_eraseDups]

/-- A key that came before is not counted again. -/
lemma eraseDups_append_cons {front : List κ} {k : κ} (h : k ∈ front) (back : List κ) :
    (front ++ k :: back).eraseDups = (front ++ back).eraseDups := by
  rw [← List.singleton_append, ← List.append_assoc, ← eraseDups_append_eraseDups,
    eraseDups_concat, if_pos h, eraseDups_append_eraseDups]

/-- What comes later adds its keys behind those that were there. -/
lemma eraseDups_prefix_append (front back : List κ) :
    front.eraseDups <+: (front ++ back).eraseDups := by
  rw [List.eraseDups_append]
  exact List.prefix_append _ _

end

/-! ## A step -/

section

variable {α κ : Type} [DecidableEq κ] {key : α → κ} {a b : α} {came held : List α}

/-- Puts an entry in the place of the one with the same key, or else at the end. -/
def settle (key : α → κ) (a : α) : List α → List α
  | [] => [a]
  | b :: bs => if key b = key a then a :: bs else b :: settle key a bs

lemma map_key_settle (a : α) (held : List α) :
    (settle key a held).map key =
      if key a ∈ held.map key then held.map key else held.map key ++ [key a] := by
  induction held with
  | nil => rfl
  | cons b bs ih =>
      by_cases h : key b = key a
      · simp [settle, h]
      · have h' : ¬key a = key b := fun heq => h heq.symm
        simp only [settle, h, if_false, List.map_cons, ih, List.mem_cons, h', false_or]
        split_ifs <;> rfl

/-- Of different keys the one of the entry gets the entry, and the others keep theirs. -/
lemma mem_settle (hnodup : (held.map key).Nodup) (h : b ∈ settle key a held) :
    b = a ∨ b ∈ held ∧ key b ≠ key a := by
  induction held with
  | nil => exact Or.inl (List.mem_singleton.mp h)
  | cons c cs ih =>
      rw [List.map_cons, List.nodup_cons] at hnodup
      rw [settle] at h
      split_ifs at h with hc
      · rcases List.mem_cons.mp h with rfl | h
        · exact Or.inl rfl
        · refine Or.inr ⟨List.mem_cons_of_mem c h, fun hb => hnodup.1 ?_⟩
          exact (hb.trans hc.symm) ▸ List.mem_map_of_mem h
      · rcases List.mem_cons.mp h with rfl | h
        · exact Or.inr ⟨List.mem_cons_self, hc⟩
        · exact (ih hnodup.2 h).imp_right fun h => ⟨List.mem_cons_of_mem c h.1, h.2⟩

/-- An entry whose key is there takes the place of the one that was held. -/
lemma settle_of_mem (hnodup : (held.map key).Nodup) (h : key a ∈ held.map key) :
    settle key a held = held.map fun b => if key b = key a then a else b := by
  induction held with
  | nil => exact absurd h List.not_mem_nil
  | cons c cs ih =>
      rw [List.map_cons, List.nodup_cons] at hnodup
      rw [settle, List.map_cons]
      by_cases hc : key c = key a
      · have hrest : ∀ b ∈ cs, (if key b = key a then a else b) = b := by
          intro b hb
          have hne : key b ≠ key a := by
            intro heq
            rw [hc, ← heq] at hnodup
            exact hnodup.1 (List.mem_map_of_mem hb)
          rw [if_neg hne]
        rw [if_pos hc, if_pos hc, List.map_congr_left hrest, List.map_id']
      · have hmem : key a ∈ cs.map key := by
          rw [List.map_cons, List.mem_cons] at h
          exact h.resolve_left fun heq => hc heq.symm
        rw [if_neg hc, if_neg hc, ih hnodup.2 hmem]

/-! ## The law -/

/-- What is held of the entries that came: each key once, where it came first, and under each key
the entry that came last. -/
structure KeepsLast (key : α → κ) (came held : List α) : Prop where
  keys : held.map key = (came.map key).eraseDups
  last : ∀ a ∈ held, came.reverse.find? (key · = key a) = some a

lemma KeepsLast.nodup (h : KeepsLast key came held) : (held.map key).Nodup :=
  h.keys ▸ nodup_eraseDups _

lemma KeepsLast.nil : KeepsLast key [] [] :=
  ⟨rfl, fun _ ha => absurd ha List.not_mem_nil⟩

/-- **An entry that comes is put in its place.** -/
theorem KeepsLast.settle (h : KeepsLast key came held) (a : α) :
    KeepsLast key (came ++ [a]) (settle key a held) := by
  constructor
  · rw [map_key_settle, h.keys, List.map_append, List.map_cons, List.map_nil, eraseDups_concat]
    simp only [List.mem_eraseDups]
  · intro b hb
    rw [List.reverse_append, List.reverse_singleton, List.singleton_append, List.find?_cons]
    rcases mem_settle h.nodup hb with rfl | ⟨hb, hne⟩
    · simp
    · rw [decide_eq_false fun heq => hne heq.symm]
      exact h.last b hb

/-- Puts the entries of a list in their places one after the other. -/
def settleAll (key : α → κ) (came : List α) : List α :=
  came.foldl (fun held a => AtomicStyle.settle key a held) []

/-- **Behind any run of entries each key holds the last one.** -/
theorem keepsLast_settleAll (key : α → κ) (came : List α) :
    KeepsLast key came (settleAll key came) := by
  induction came using List.reverseRecOn with
  | nil => exact .nil
  | append_singleton came a ih =>
      rw [settleAll, List.foldl_append]
      exact ih.settle a

/-- Of the entries that came, the last one under a key is held. -/
lemma KeepsLast.find?_eq (h : KeepsLast key came held) (k : κ) :
    held.find? (key · = k) = came.reverse.find? (key · = k) := by
  cases hheld : held.find? (key · = k) with
  | some a =>
      obtain rfl : key a = k := by simpa using List.find?_some hheld
      exact (h.last a (List.mem_of_find?_eq_some hheld)).symm
  | none =>
      symm
      rw [List.find?_eq_none] at hheld ⊢
      intro a ha hk
      have hmem : k ∈ held.map key := by
        rw [h.keys, List.mem_eraseDups, ← of_decide_eq_true hk]
        exact List.mem_map_of_mem (List.mem_reverse.mp ha)
      obtain ⟨b, hb, rfl⟩ := List.mem_map.mp hmem
      exact hheld b hb (decide_eq_true rfl)

/-- Entries under different keys are held as they are. -/
lemma KeepsLast.of_nodup (h : (held.map key).Nodup) : KeepsLast key held held := by
  constructor
  · rw [eraseDups_eq_self h]
  · intro a ha
    cases hfound : held.reverse.find? (key · = key a) with
    | none =>
        rw [List.find?_eq_none] at hfound
        exact absurd (decide_eq_true rfl) (hfound a (List.mem_reverse.mpr ha))
    | some b =>
        have hb : b ∈ held := List.mem_reverse.mp (List.mem_of_find?_eq_some hfound)
        have hkey : key b = key a := by simpa using List.find?_some hfound
        rw [List.inj_on_of_nodup_map h hb ha hkey]

/-- **What is held is determined by its keys and the last entries.** -/
theorem KeepsLast.eq_filterMap (h : KeepsLast key came held) :
    held = (came.map key).eraseDups.filterMap fun k => came.reverse.find? (key · = k) := by
  rw [← h.keys, List.filterMap_map]
  have hlast : ∀ a ∈ held, ((fun k => came.reverse.find? (key · = k)) ∘ key) a = some a := h.last
  rw [List.filterMap_congr hlast, List.filterMap_some]

/-- There is one list that keeps the last entries. -/
lemma KeepsLast.unique {held' : List α} (h : KeepsLast key came held)
    (h' : KeepsLast key came held') : held = held' :=
  h.eq_filterMap.trans h'.eq_filterMap.symm

/-! ## Two runs -/

variable {came' held' whole : List α}

/-- **A run may be made in two parts**, of which only what each one holds is kept. -/
theorem KeepsLast.append (h : KeepsLast key came held) (h' : KeepsLast key came' held')
    (hwhole : KeepsLast key (held ++ held') whole) : KeepsLast key (came ++ came') whole := by
  constructor
  · rw [hwhole.keys, List.map_append, h.keys, h'.keys, eraseDups_append_eraseDups,
      List.map_append]
  · intro a ha
    have hlast := hwhole.last a ha
    rw [List.reverse_append, List.find?_append] at hlast ⊢
    rwa [← (KeepsLast.of_nodup h'.nodup).find?_eq, ← (KeepsLast.of_nodup h.nodup).find?_eq,
      h'.find?_eq, h.find?_eq] at hlast

/-- **An entry makes no difference** if its key came before and comes again. -/
theorem KeepsLast.insert (h : KeepsLast key (came ++ came') held)
    (hbefore : key a ∈ came.map key) (hagain : key a ∈ came'.map key) :
    KeepsLast key (came ++ a :: came') held := by
  constructor
  · rw [h.keys, List.map_append, List.map_append, List.map_cons, eraseDups_append_cons hbefore]
  · intro b hb
    have hlast := h.last b hb
    rw [List.reverse_append, List.find?_append] at hlast ⊢
    rw [List.reverse_cons, List.find?_append, Option.or_assoc]
    -- the entry is found only for its own key, and there something that came later is found first
    by_cases hkey : key a = key b
    · obtain ⟨c, hc, hca⟩ := List.mem_map.mp hagain
      have hfound : (came'.reverse.find? (key · = key b)).isSome = true :=
        List.find?_isSome.mpr ⟨c, List.mem_reverse.mpr hc, decide_eq_true (hca.trans hkey)⟩
      obtain ⟨d, hd⟩ := Option.isSome_iff_exists.mp hfound
      rw [hd, Option.some_or] at hlast ⊢
      exact hlast
    · have hskipped : [a].find? (key · = key b) = none := by simp [hkey]
      rwa [hskipped, Option.none_or]

end

end AtomicStyle
