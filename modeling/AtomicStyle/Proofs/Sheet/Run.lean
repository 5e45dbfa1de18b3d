import AtomicStyle.Proofs.Sheet

/-!
# Runs of additions

A sheet is filled by calls, each of which adds one rule or several and reports how many of them were
new.  What such a run leaves behind is a function of the rules added, in order: how they were spread
over the calls makes no difference (`run_spec`).

**Reports.**  A call reports by how much the sheet grew (`perform_spec`), so a run on an empty sheet
reports its size.

**First rules.**  A rule is looked up as if every rule added were still there, since a lookup takes
the first (`lookup_addAll`).  So a rule under an identifier that came before makes no difference
(`addAll_of_mem`).

**Order.**  A list in ascending order is determined by its parts of equal keys
(`eq_of_filter_key_eq`).  Sorting stably leaves these parts as they were, so that the sorted rules
are the only ones that do (`isStableSorting_iff`).
-/

namespace AtomicStyle

/-! ## Order -/

section

variable {α : Type} {key : α → Int} {as bs : List α}

/-- Lists with the same parts of equal keys have the same members. -/
lemma mem_iff_of_filter_key_eq (h : ∀ k, as.filter (key · = k) = bs.filter (key · = k)) {a : α} :
    a ∈ as ↔ a ∈ bs := by
  have ha : a ∈ as.filter (key · = key a) ↔ a ∈ bs.filter (key · = key a) := by rw [h]
  simpa using ha

/-- Lists in ascending order are equal if their parts of equal keys are. -/
lemma eq_of_filter_key_eq (ha : as.Pairwise fun x y => key x ≤ key y)
    (hb : bs.Pairwise fun x y => key x ≤ key y)
    (h : ∀ k, as.filter (key · = k) = bs.filter (key · = k)) : as = bs := by
  induction as generalizing bs with
  | nil =>
      refine (List.eq_nil_iff_forall_not_mem.mpr fun b hb => ?_).symm
      exact absurd ((mem_iff_of_filter_key_eq h).mpr hb) List.not_mem_nil
  | cons a as ih =>
      have hmem := (mem_iff_of_filter_key_eq h).mp List.mem_cons_self
      cases bs with
      | nil => exact absurd hmem List.not_mem_nil
      | cons b bs =>
          have hmem' : b ∈ a :: as := (mem_iff_of_filter_key_eq h).mpr List.mem_cons_self
          obtain ⟨hafirst, harest⟩ := List.pairwise_cons.mp ha
          obtain ⟨hbfirst, hbrest⟩ := List.pairwise_cons.mp hb
          -- each head is in the other list, so neither key is below the other
          have hkey : key a = key b := by
            apply Int.le_antisymm
            · rcases List.mem_cons.mp hmem' with rfl | hmem'
              · exact Int.le_refl _
              · exact hafirst b hmem'
            · rcases List.mem_cons.mp hmem with rfl | hmem
              · exact Int.le_refl _
              · exact hbfirst a hmem
          have hheads := h (key a)
          rw [List.filter_cons_of_pos (by simp), List.filter_cons_of_pos (by simp [hkey])] at hheads
          obtain ⟨rfl, htails⟩ := List.cons.inj hheads
          refine congrArg (a :: ·) (ih harest hbrest fun k => ?_)
          by_cases hk : key a = k
          · exact hk ▸ htails
          · have hall := h k
            rwa [List.filter_cons_of_neg (by simpa using hk),
              List.filter_cons_of_neg (by simpa using hk)] at hall

end

/-- The rules are those of the other list by ascending priority, and rules of equal priority stand
in the order of the other list. -/
structure IsStableSorting (given rules : List Rule) : Prop where
  perm : rules.Perm given
  ascending : rules.Pairwise fun a b => a.priority ≤ b.priority
  stable : ∀ p, rules.filter (·.priority = p) = given.filter (·.priority = p)

namespace Sheet

/-- The emitted rules are a stable sorting of the held ones. -/
lemma isStableSorting_sorted (s : Sheet) : IsStableSorting (s.entries.map Prod.snd) s.sorted := by
  have htrans : ∀ a b c : Rule, decide (a.priority ≤ b.priority) = true →
      decide (b.priority ≤ c.priority) = true → decide (a.priority ≤ c.priority) = true := by
    simpa using fun a b c : Rule => Int.le_trans
  have htotal : ∀ a b : Rule,
      (decide (a.priority ≤ b.priority) || decide (b.priority ≤ a.priority)) = true := by
    simpa using fun a b : Rule => Int.le_total a.priority b.priority
  refine ⟨sorted_perm s, ?_, fun p => ?_⟩
  · exact (List.pairwise_mergeSort htrans htotal _).imp of_decide_eq_true
  · -- the part is a sublist of the sorted rules, and there it is as long as the whole part
    have hpairwise : ((s.entries.map Prod.snd).filter (·.priority = p)).Pairwise
        fun a b => decide (a.priority ≤ b.priority) = true := by
      refine List.pairwise_of_forall_mem_list fun a ha b hb => ?_
      simp only [List.mem_filter, decide_eq_true_eq] at ha hb ⊢
      exact Int.le_of_eq (ha.2.trans hb.2.symm)
    have hsub := List.sublist_mergeSort htrans htotal hpairwise List.filter_sublist
    have hsub := hsub.filter (·.priority = p)
    rw [List.filter_filter] at hsub
    simp only [Bool.and_self] at hsub
    exact (hsub.eq_of_length ((sorted_perm s).filter _).length_eq.symm).symm

/-- **The emitted rules are the only stable sorting of the held ones.** -/
theorem isStableSorting_iff {s : Sheet} {rules : List Rule} :
    IsStableSorting (s.entries.map Prod.snd) rules ↔ rules = s.sorted := by
  have hsorted := isStableSorting_sorted s
  constructor
  · intro h
    exact eq_of_filter_key_eq h.ascending hsorted.ascending fun p =>
      (h.stable p).trans (hsorted.stable p).symm
  · rintro rfl
    exact hsorted

/-! ## First rules -/

/-- A rule is found as if every rule added were still there. -/
theorem lookup_addAll (s : Sheet) (rules : List (String × Rule)) (name : String) :
    (s.addAll rules).entries.lookup name = (s.entries ++ rules).lookup name := by
  induction rules generalizing s with
  | nil => rw [List.append_nil]; rfl
  | cons entry rest ih =>
      obtain ⟨other, rule⟩ := entry
      have hstep : (s.addAll ((other, rule) :: rest)).entries.lookup name =
          ((s.add other rule).entries ++ rest).lookup name := ih _
      rw [hstep]
      cases hholds : s.holds other with
      | false =>
          rw [entries_add_of_not_holds hholds, List.append_assoc]
          rfl
      | true =>
          rw [add_of_holds hholds, List.lookup_append, List.lookup_append]
          by_cases hname : name = other
          · obtain ⟨held, hheld, hother⟩ := List.mem_map.mp (holds_iff.mp hholds)
            have hfound : (s.entries.lookup name).isSome = true :=
              List.lookup_isSome_iff.mpr ⟨held, hheld, by simp [hname, hother]⟩
            obtain ⟨rule', hrule'⟩ := Option.isSome_iff_exists.mp hfound
            rw [hrule', Option.some_or, Option.some_or]
          · rw [List.lookup_cons, beq_false_of_ne hname]

/-- A rule under an identifier that came before makes no difference. -/
theorem addAll_of_mem {before after : List (String × Rule)} {name : String} {rule : Rule}
    (h : name ∈ before.map Prod.fst) :
    ({} : Sheet).addAll (before ++ (name, rule) :: after) =
      ({} : Sheet).addAll (before ++ after) := by
  have hholds : (({} : Sheet).addAll before).holds name = true := by
    rw [holds_iff, identifiers_addAll, List.mem_eraseDups]
    exact h
  rw [addAll_append, addAll_append]
  exact congrArg (fun s : Sheet => s.addAll after) (add_of_holds hholds rule)

/-! ## Reports -/

/-- A call that adds to a sheet. -/
inductive Call where
  | add (name : String) (rule : Rule)
  | addAll (rules : List (String × Rule))

/-- The rules that a call adds, in order. -/
def Call.additions : Call → List (String × Rule)
  | .add name rule => [(name, rule)]
  | .addAll rules => rules

/-- The sheet behind a call, and the number of additions that the call reports. -/
def perform (s : Sheet) : Call → Sheet × Nat
  | .add name rule => ((s.insert name rule).1, (s.insert name rule).2.toNat)
  | .addAll rules => s.insertAll rules

/-- The sheet behind calls made one after the other, and the number of additions that they
report together. -/
def run (s : Sheet) : List Call → Sheet × Nat
  | [] => (s, 0)
  | call :: calls =>
    ((run (s.perform call).1 calls).1, (s.perform call).2 + (run (s.perform call).1 calls).2)

lemma size_add (s : Sheet) (name : String) (rule : Rule) :
    (s.add name rule).size = s.size + (s.insert name rule).2.toNat := by
  unfold add insert
  split_ifs
  · rfl
  · exact List.length_append

lemma size_addAll_add (s : Sheet) (rules : List (String × Rule)) :
    (s.addAll rules).size = s.size + (s.insertAll rules).2 := by
  induction rules generalizing s with
  | nil => rfl
  | cons entry rest ih =>
      rw [insertAll]
      dsimp only
      rw [fst_insert, ← Nat.add_assoc, ← size_add]
      exact ih _

/-- **A call adds its rules and reports by how much the sheet grew.** -/
theorem perform_spec (s : Sheet) (call : Call) :
    (s.perform call).1 = s.addAll call.additions ∧
      (s.perform call).1.size = s.size + (s.perform call).2 := by
  cases call with
  | add name rule => exact ⟨fst_insert s name rule, (fst_insert s name rule) ▸ size_add s name rule⟩
  | addAll rules =>
      refine ⟨fst_insertAll s rules, ?_⟩
      exact (congrArg size (fst_insertAll s rules)).trans (size_addAll_add s rules)

/-- **A run adds the rules of its calls and reports by how much the sheet grew.** -/
theorem run_spec (s : Sheet) (calls : List Call) :
    (s.run calls).1 = s.addAll (calls.flatMap Call.additions) ∧
      (s.run calls).1.size = s.size + (s.run calls).2 := by
  induction calls generalizing s with
  | nil => exact ⟨rfl, rfl⟩
  | cons call calls ih =>
      obtain ⟨hsheet, hsize⟩ := perform_spec s call
      obtain ⟨hrest, hrestsize⟩ := ih (s.perform call).1
      constructor
      · rw [List.flatMap_cons, addAll_append, ← hsheet]
        exact hrest
      · rw [run]
        dsimp only
        rw [hrestsize, hsize, Nat.add_assoc]

/-- **The store law.**  Behind any run of calls on an empty sheet, the reports add up to the number
of rules held; the identifiers are those added, each held with the first rule that was added under
it; and the rules are emitted in their only stable sorting.  So a rule that is added, anywhere in
the run, under an identifier that came before changes no text. -/
theorem store_of_run {calls : List Call} {s : Sheet} {reported : Nat}
    (h : ({} : Sheet).run calls = (s, reported)) :
    reported = s.size ∧
      s.identifiers = ((calls.flatMap Call.additions).map Prod.fst).eraseDups ∧
      (∀ name, s.entries.lookup name = (calls.flatMap Call.additions).lookup name) ∧
      (∀ rules, IsStableSorting (s.entries.map Prod.snd) rules ↔ rules = s.sorted) ∧
      ∀ before after name rule calls', calls.flatMap Call.additions = before ++ after →
        name ∈ before.map Prod.fst →
        calls'.flatMap Call.additions = before ++ (name, rule) :: after →
        (({} : Sheet).run calls').1.ltrText = s.ltrText ∧
          (({} : Sheet).run calls').1.rtlText = s.rtlText := by
  obtain ⟨hsheet, hsize⟩ := run_spec {} calls
  rw [h] at hsheet hsize
  dsimp only at hsheet hsize
  refine ⟨?_, ?_, fun name => ?_, fun rules => isStableSorting_iff, ?_⟩
  · rw [hsize]
    exact (Nat.zero_add reported).symm
  · rw [hsheet, identifiers_addAll]
  · rw [hsheet, lookup_addAll]
    rfl
  · intro before after name rule calls' hcalls hname hcalls'
    have hsame : (({} : Sheet).run calls').1 = s := by
      rw [(run_spec {} calls').1, hcalls', addAll_of_mem hname, ← hcalls, hsheet]
    exact ⟨congrArg ltrText hsame, congrArg rtlText hsame⟩

/-- Two calls that add four rules under two identifiers, and the same run with one rule more. -/
theorem store_of_run_with_repeats :
    ∃ s : Sheet,
      ({} : Sheet).run [.add "hover" ⟨"hover", "a", none, 2⟩,
        .addAll [("plain", ⟨"plain", "b", some "c", 0⟩), ("hover", ⟨"plain", "d", none, 0⟩)]] =
          (s, 2) ∧
      s.size = 2 ∧ s.identifiers = ["hover", "plain"] ∧
      s.entries.lookup "hover" = some ⟨"hover", "a", none, 2⟩ ∧
      s.sorted = [⟨"plain", "b", some "c", 0⟩, ⟨"hover", "a", none, 2⟩] ∧
      (({} : Sheet).run [.addAll [("hover", ⟨"hover", "a", none, 2⟩),
        ("hover", ⟨"hover", "e", none, 7⟩), ("plain", ⟨"plain", "b", some "c", 0⟩)],
        .add "hover" ⟨"plain", "d", none, 0⟩]).1.rtlText = s.rtlText := by
  have hrun : ({} : Sheet).run [.add "hover" ⟨"hover", "a", none, 2⟩,
      .addAll [("plain", ⟨"plain", "b", some "c", 0⟩), ("hover", ⟨"plain", "d", none, 0⟩)]] =
      ({ entries := [("hover", ⟨"hover", "a", none, 2⟩), ("plain", ⟨"plain", "b", some "c", 0⟩)] },
        2) := rfl
  obtain ⟨hsize, hnames, hlookup, hsorted, hagain⟩ := store_of_run hrun
  refine ⟨_, hrun, hsize.symm, rfl, hlookup "hover", ((hsorted _).mp ⟨?_, ?_, ?_⟩).symm, ?_⟩
  · exact List.Perm.swap _ _ _
  · simp
  · intro p
    by_cases hp : p = 0
    · subst hp
      rfl
    · have hp' : ¬(0 : Int) = p := fun h => hp h.symm
      simp [List.filter_cons, hp']
  · exact (hagain [("hover", ⟨"hover", "a", none, 2⟩)] _ "hover" ⟨"hover", "e", none, 7⟩ _ rfl
      List.mem_cons_self rfl).2

end Sheet

end AtomicStyle
