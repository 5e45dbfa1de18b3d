import AtomicStyle.Proofs.LastWins
import AtomicStyle.Sheet
import Mathlib.Data.Finset.Card

/-!
# What a sheet holds

A sheet is filled rule by rule, and a rule comes in only under a new identifier.

**Identifiers.**  The identifiers of a sheet are those of the rules that were added, without the
repetitions behind each first one (`identifiers_addAll`).  They are distinct, so the size of the
sheet is the number of different identifiers (`size_addAll`).

**Rules.**  What a sheet holds was added to it (`mem_of_mem_addAll`).
-/

namespace AtomicStyle.Sheet

lemma holds_iff {s : Sheet} {name : String} : s.holds name = true ↔ name ∈ s.identifiers := by
  rw [holds, List.contains_iff_mem]

lemma identifiers_add (s : Sheet) (name : String) (rule : Rule) :
    (s.add name rule).identifiers =
      if name ∈ s.identifiers then s.identifiers else s.identifiers ++ [name] := by
  split_ifs with h
  · rw [add_of_holds (holds_iff.mpr h)]
  · have hnot : s.holds name = false := by rwa [← Bool.not_eq_true, holds_iff]
    rw [identifiers, entries_add_of_not_holds hnot, List.map_append]
    rfl

lemma addAll_append (s : Sheet) (rules others : List (String × Rule)) :
    s.addAll (rules ++ others) = (s.addAll rules).addAll others :=
  List.foldl_append

lemma addAll_concat (s : Sheet) (rules : List (String × Rule)) (rule : String × Rule) :
    s.addAll (rules ++ [rule]) = (s.addAll rules).add rule.1 rule.2 := by
  rw [addAll_append]
  rfl

/-- **The identifiers of a sheet are those added to it, each where it came first.** -/
theorem identifiers_addAll (rules : List (String × Rule)) :
    (({} : Sheet).addAll rules).identifiers = (rules.map Prod.fst).eraseDups := by
  -- from the right, since a rule that is added meets those in front of it
  induction rules using List.reverseRecOn with
  | nil => rfl
  | append_singleton rules rule ih =>
      rw [addAll_concat, identifiers_add, ih, List.map_append, List.map_cons, List.map_nil,
        eraseDups_concat]
      simp only [List.mem_eraseDups]

lemma nodup_identifiers_addAll (rules : List (String × Rule)) :
    (({} : Sheet).addAll rules).identifiers.Nodup :=
  identifiers_addAll rules ▸ nodup_eraseDups _

/-- **The size of a sheet is the number of different identifiers added to it.** -/
theorem size_addAll (rules : List (String × Rule)) :
    (({} : Sheet).addAll rules).size = (rules.map Prod.fst).toFinset.card := by
  have hsize : (({} : Sheet).addAll rules).size =
      (({} : Sheet).addAll rules).identifiers.length := by
    rw [size, identifiers, List.length_map]
  have hsame : (({} : Sheet).addAll rules).identifiers.toFinset =
      (rules.map Prod.fst).toFinset := by
    ext name
    rw [List.mem_toFinset, List.mem_toFinset, identifiers_addAll, List.mem_eraseDups]
  rw [hsize, ← hsame, List.toFinset_card_of_nodup (nodup_identifiers_addAll rules)]

/-- What a sheet holds was added to it. -/
theorem mem_of_mem_addAll {rules : List (String × Rule)} {entry : String × Rule}
    (h : entry ∈ (({} : Sheet).addAll rules).entries) : entry ∈ rules := by
  induction rules using List.reverseRecOn with
  | nil => exact absurd h List.not_mem_nil
  | append_singleton rules rule ih =>
      rw [addAll_concat, add] at h
      split_ifs at h
      · exact List.mem_append_left _ (ih h)
      · rcases List.mem_append.mp h with h | h
        · exact List.mem_append_left _ (ih h)
        · exact List.mem_append_right _ h

end AtomicStyle.Sheet
